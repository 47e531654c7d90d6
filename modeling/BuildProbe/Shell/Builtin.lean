import BuildProbe.Shell.Builtin.Permissions
import BuildProbe.Shell.Builtin.Signals
import BuildProbe.Shell.Builtin.Variables
import BuildProbe.Shell.Condition
/-!
Commands of the shell's own that run no others.
-/
namespace BuildProbe.Shell

open Text (Bytes)
open Work

namespace Builtin

def formatted (name format : Bytes) (words : List Bytes) : Work Nat := do
  let shown := Display.printf format words
  for complaint in shown.complaints do complain complaint
  return max shown.status (← display name shown.shown)

def printf (name : Bytes) (words : List Bytes) : Work Nat := do
  match (← options "" words).2 with
  | [] => refuse [] "usage: printf format [arg ...]"
  | format :: words => formatted name format words

def condition (words : List Bytes) : Work Nat := do
  match Condition.holds (← tree) words with
  | .ok holds => return if holds then 0 else 1
  | .error fault => refuse fault.about fault.what

def bracket (words : List Bytes) : Work Nat :=
  if (words.getLastD []).head? = some 0x5D then condition words.dropLast else refuse [] "missing ]"

def conclude (interrupt : Interrupt) (words : List Bytes) : Work Nat := do
  if let word :: _ := words then
    let n ← count word
    update fun p => { p with status := n }
  throw interrupt

def leaveLoops (interrupt : Nat → Interrupt) (words : List Bytes) : Work Nat := do
  let n ← words.head?.elim (pure 1) count
  if n = 0 then Work.fail (Text.encode "Illegal number: " ++ words.headD []) ""
  let loops := (← process).loops
  if loops = 0 then return 0
  update fun p => { p with status := 0 }
  throw (interrupt (min n loops))

def changeDirectory (words : List Bytes) : Work Nat := do
  let (_, words) ← options "LP" words
  let home ← value? (Text.encode "HOME")
  let target := (words.head?.or home).getD []
  match (← tree).resolve true (if target = [] then .here else Image.path target) with
  | .ok (.inside way) =>
    update fun p => { p with present := way }
    return 0
  | _ => refuse (Text.encode "can't cd to " ++ target) ""

def wayNames (t : Tree) (way : List Nat) : List String :=
  (way.reverse.zip (Tree.root :: way.reverse)).filterMap fun (id, above) =>
    ((t.names above).find? (·.2.id = id)).map (·.1)

def presentDirectory (name : Bytes) : Work Nat := do
  let t ← tree
  display name (Text.encode ("/" ++ "/".intercalate (wayNames t t.present) ++ "\n"))

end Builtin

def builtin? (own name : Bytes) (words : List Bytes) : Option (Bool × Work Nat) :=
  let text := Text.decode name
  match text with
  | ":" => some (true, return 0)
  | "true" | "alias" | "unalias" | "hash" | "jobs" | "wait" | "ulimit" | "bg" | "fg" =>
    some (false, return 0)
  | "false" | "getopts" => some (false, return 1)
  | "times" => some (true, return 0)
  | "echo" => some (false, Builtin.display name (Display.echo words))
  | "printf" => some (false, Builtin.printf name words)
  | "test" => some (false, Builtin.condition words)
  | "[" => some (false, Builtin.bracket words)
  | "exit" => some (true, Builtin.conclude .exits words)
  | "return" => some (true, Builtin.conclude .returns words)
  | "break" => some (true, Builtin.leaveLoops .leaves words)
  | "continue" => some (true, Builtin.leaveLoops .repeats words)
  | "shift" => some (true, Builtin.shift words)
  | "export" => some (true, Builtin.mark ({ · with exported := true }) words)
  | "readonly" => some (true, Builtin.mark ({ · with fixed := true }) words)
  | "unset" => some (true, Builtin.unset words)
  | "set" => some (true, Builtin.set words (words.length + 1))
  | "trap" => some (true, Builtin.trap name words)
  | "cd" | "chdir" => some (false, Builtin.changeDirectory words)
  | "pwd" => some (false, Builtin.presentDirectory name)
  | "read" => some (false, Builtin.read words)
  | "local" => some (true, Builtin.makeLocal words)
  | "kill" => some (false, Builtin.kill name own words)
  | "umask" => some (false, Builtin.mask name words)
  | _ => none

end BuildProbe.Shell
