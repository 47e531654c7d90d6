import BuildProbe.Shell.Session
/-!
What commands of the shell's own have in common. One of them that is special and cannot do what it
should ends the script; any other only has a status that tells.
-/
namespace BuildProbe.Shell.Builtin

open Text (Bytes)
open Work

def refuse (about : Bytes) (what : String) : Work Nat := do
  complainText about what
  return misuse

def options (allowed : String) : List Bytes → Work (Bytes × List Bytes)
  | (0x2D :: letter :: letters) :: words => do
    if letter :: letters = [0x2D] then return ([], words)
    for letter in letter :: letters do
      unless among allowed letter do Work.fail (Text.encode "Illegal option -" ++ [letter]) ""
    let (further, words) ← options allowed words
    return (letter :: letters ++ further, words)
  | words => return ([], words)

def display (name text : Bytes) : Work Nat := do
  if ← write 1 text then return 0
  complainText name ": I/O error"
  return 1

def count (word : Bytes) : Work Nat :=
  if word ≠ [] ∧ word.all isDigit ∧ number word < 0x80000000 then return number word
  else Work.fail (Text.encode "Illegal number: " ++ word) ""

end BuildProbe.Shell.Builtin
