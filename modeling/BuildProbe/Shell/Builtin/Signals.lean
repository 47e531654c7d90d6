import BuildProbe.Probe.Signal
import BuildProbe.Shell.Builtin.Basic
/-!
Commands about signals. A signal comes to the shell itself; what is to be run for it is run behind
the command that sends it.
-/
namespace BuildProbe.Shell.Builtin

open Text (Bytes)
open Work

def signalLimit : Nat := 65

def conditionName (n : Nat) : String :=
  if n = 0 then "EXIT"
  else if n = 16 ∨ n = 32 ∨ n = 33 then toString n
  else if n = 34 then "RTMIN"
  else if n = 64 then "RTMAX"
  else if 34 < n ∧ n < 50 then "RTMIN+" ++ toString (n - 34)
  else if 50 ≤ n then "RTMAX-" ++ toString (64 - n)
  else ((Signal.names.find? (·.1 = n)).map (·.2)).getD (toString n)

def conditionNumber? (word : Bytes) : Option Nat :=
  if word ≠ [] ∧ word.all isDigit ∧ number word < signalLimit then some (number word) else none

def condition? (word : Bytes) : Option Nat :=
  let name := (Text.decode word).toUpper
  (conditionNumber? word).or ((List.range signalLimit).find? (conditionName · = name))

def signal? (word : Bytes) : Option Nat :=
  (conditionNumber? word).or ((condition? word).filter (· ≠ 0))

def signalSelf (signal : Nat) : Work Unit := do
  if signal = 9 then throw (.dies signal)
  if signal = 19 then throw (.stays ⟨false, none⟩)
  match (← process).traps.find? (·.1 = signal) with
  | some (_, []) => return ()
  | some _ => update fun p => { p with caught := p.caught ++ [signal] }
  | none =>
    if Signal.stopping.any (·.1 = signal) then throw (.stays ⟨false, none⟩)
    unless Signal.idle.any (·.1 = signal) do throw (.dies signal)

def signalAll (own : Bytes) (signal : Nat) (status : Nat) : List Bytes → Work Nat
  | [] => return status
  | target :: targets => do
    if target = own then
      unless signal = 0 do signalSelf signal
      signalAll own signal status targets
    else if target = [] ∨ !target.all isDigit then
      Work.fail (Text.encode "Illegal number: " ++ target) ""
    else
      complainText [] "No such process"
      signalAll own signal 1 targets

def kill (command own : Bytes) (words : List Bytes) : Work Nat := do
  let send (bad name : Bytes) (targets : List Bytes) : Work Nat :=
    match signal? name with
    | none => refuse bad ""
    | some signal => signalAll own signal 0 targets
  match words with
  | [] => refuse [] <| "Usage: kill [-s sigspec | -signum | -sigspec] [pid | job]... or\n"
      ++ "kill -l [exitstatus]"
  | [[0x2D, 0x6C]] =>
    let names := (List.range' 1 (signalLimit - 1)).map (conditionName · ++ "\n")
    display command (Text.encode ("0\n" ++ String.join names))
  | [0x2D, 0x6C] :: word :: _ =>
    let n ← count word
    let n := if 128 < n then n - 128 else n
    if 0 < n ∧ n < signalLimit then display command (Text.encode (conditionName n ++ "\n"))
    else refuse (Text.encode "invalid signal number or exit status: " ++ word) ""
  | [0x2D, 0x73] :: name :: targets =>
    send (Text.encode "invalid signal number or name: " ++ name) name targets
  | (0x2D :: name) :: targets => send (Text.encode "Illegal option -" ++ name.take 1) name targets
  | targets => send [] (decimal 15) targets

def quoted : Bytes → (limit : Nat) → Bytes
  | _, 0 => []
  | text, limit + 1 =>
    let plain := text.takeWhile (· ≠ 0x27)
    let rest := text.drop plain.length
    let quotes := rest.takeWhile (· = 0x27)
    let rest := rest.drop quotes.length
    let first := [0x27] ++ plain ++ [0x27]
    let second := if quotes = [] then [] else [0x22] ++ quotes ++ [0x22]
    first ++ second ++ if rest = [] then [] else quoted rest limit

def trapText (traps : List (Nat × Bytes)) : Bytes :=
  (List.range signalLimit).flatMap fun n =>
    match traps.find? (·.1 = n) with
    | none => []
    | some (_, action) =>
      Text.encode "trap -- " ++ quoted action (action.length + 1)
        ++ Text.encode (" " ++ conditionName n ++ "\n")

def trap (name : Bytes) (words : List Bytes) : Work Nat := do
  match (← options "" words).2 with
  | [] => display name (trapText (← process).traps)
  | first :: rest =>
    let alone := rest = [] ∨ (conditionNumber? first).isSome
    let action := if alone ∨ first = [0x2D] then none else some first
    for word in if alone then first :: rest else rest do
      match condition? word with
      | some condition => setTrap condition action
      | none =>
        let _ ← write 2 (Text.encode "trap: " ++ word ++ Text.encode ": bad trap\n")
        return 1
    return 0

end BuildProbe.Shell.Builtin
