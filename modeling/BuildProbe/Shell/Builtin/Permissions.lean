import BuildProbe.Shell.Builtin.Basic
import BuildProbe.Shell.Display
/-!
The permission bits that are taken away from new files, as a number or as what is permitted to
each kind of user.
-/
namespace BuildProbe.Shell.Builtin

open Text (Bytes)
open Work

def users (letter : UInt8) : Nat :=
  if letter = 0x75 then 0o100 else if letter = 0x67 then 0o010 else if letter = 0x6F then 0o001
  else 0o111

def permitted (now : Nat) (letter : UInt8) : Nat :=
  if letter = 0x72 then 4 else if letter = 0x77 then 2 else if letter = 0x78 then 1
  else if letter = 0x75 then now >>> 6 else if letter = 0x67 then now >>> 3
  else if letter = 0x6F then now
  else if letter = 0x58 ∧ now &&& Image.executeBits ≠ 0 then 1 else 0

def permittedAfter (now : Nat) : (limit named next : Nat) → Bytes → Option Nat
  | 0, _, next, _ | _, _, next, [] => some next
  | limit + 1, named, next, text =>
    let who := text.takeWhile (among "augo")
    let named := who.foldl (fun n letter => n ||| users letter) named
    let named := if named = 0 then users 0x61 else named
    match text.drop who.length with
    | [] => some next
    | sign :: rest =>
      if !among "=+-" sign then none
      else
        let letters := rest.takeWhile (among "rwxugoXs")
        let bits := letters.foldl (fun n letter => n ||| permitted now letter) 0
        let bits := (bits &&& 7) * named
        let next :=
          if sign = 0x2D then next &&& (0o777 ^^^ bits)
          else if sign = 0x2B then next ||| bits
          else (next &&& (0o777 ^^^ 7 * named)) ||| bits
        match rest.drop letters.length with
        | 0x2C :: rest => permittedAfter now limit 0 next rest
        | rest =>
          if rest.head?.all (among "=+-") then permittedAfter now limit named next rest else none

def permissionText (now : Nat) : String :=
  ",".intercalate <| [("u", 6), ("g", 3), ("o", 0)].map fun (user, place) =>
    user ++ "=" ++ String.join ([("r", 4), ("w", 2), ("x", 1)].map fun (letter, bit) =>
      if (now >>> place) &&& bit = 0 then "" else letter)

def octal (n : Nat) : String :=
  let digits := Nat.toDigits 8 n
  String.ofList (List.replicate (4 - digits.length) '0' ++ digits)

def mask (name : Bytes) (words : List Bytes) : Work Nat := do
  let (options, words) ← options "S" words
  let mask := (← process).mask
  let now := 0o777 ^^^ mask
  let change (mask : Nat) : Work Nat := do
    update fun p => { p with mask := mask }
    return 0
  match words with
  | [] =>
    let text := if options.contains 0x53 then permissionText now else octal mask
    display name (Text.encode (text ++ "\n"))
  | word :: _ =>
    if word.head?.any isDigit then
      if word.all Display.isOctal then
        change (word.foldl (fun n b => 8 * n + (b.toNat - 0x30)) 0 &&& 0o777)
      else refuse (Text.encode "Illegal number: " ++ word) ""
    else
      match permittedAfter now (word.length + 1) 0 now word with
      | some next => change (0o777 ^^^ next)
      | none => refuse (Text.encode "Illegal mode: " ++ word) ""

end BuildProbe.Shell.Builtin
