import BuildProbe.Tree.Calls
/-!
What is in a file that is to be run, and how the system runs it. A text that names an interpreter
in its first line is run by it, and so is that interpreter when it is such a text.
-/
namespace BuildProbe

open Text (Bytes)

structure Launch where
  program : Program
  arguments : List Bytes

structure Performance where
  story : Story
  tree : Tree

namespace Image

def executeBits : Nat := 0o111

def headLength : Nat := 256

def interpreterLimit : Nat := 5

def isBlank (b : UInt8) : Bool := b == 0x20 || b == 0x09

def endsWord (b : UInt8) : Bool := isBlank b || b == 0

def marked? (bytes : Bytes) : Option Bytes :=
  match (bytes ++ List.replicate headLength 0).take headLength with
  | 0x23 :: 0x21 :: head => some head
  | _ => none

/-- The rest of the first line. One that does not end within the head counts when its first word
does, and goes up to the last byte. -/
def firstLine? (head : Bytes) : Option Bytes :=
  if head.contains 0x0A then some (head.takeWhile (· != 0x0A))
  else if (head.dropWhile isBlank).any endsWord then some head.dropLast
  else none

def stripped (line : Bytes) : Bytes :=
  ((line.dropWhile isBlank).reverse.dropWhile isBlank).reverse

/-- Bytes as a path. In bytes that are no text, what cannot be decoded is in no entry's name. -/
def path (bytes : Bytes) : Path :=
  let text := Text.decode bytes
  if Text.encode text = bytes then .ofText text
  else .ofText (String.ofList (text.toList.map fun c => if c = Text.replacement then '\x00' else c))

def extra : Bytes → List Bytes
  | [] => []
  | b :: rest => if isBlank b then [(rest.dropWhile isBlank).takeWhile (· != 0)] else []

def interpreter? (bytes : Bytes) : Option (Path × List Bytes) := do
  let line := stripped (← firstLine? (← marked? bytes))
  if line.isEmpty then none
  else some (path (line.takeWhile (!endsWord ·)), extra (line.dropWhile (!endsWord ·)))

def image (t : Tree) (p : Path) : Except Errno Content := do
  if p.isEmpty then throw .permissionDenied
  match (← t.entry true p).node with
  | .file content mode =>
    if mode &&& executeBits = 0 then throw .permissionDenied
    return content
  | _ => throw .permissionDenied

def execute (t : Tree) (p : Path) (arguments : List Bytes) (depth : Nat) :
    Content → Except Errno Launch
  | .program program => .ok ⟨program, arguments⟩
  | .data bytes => do
    match interpreter? bytes with
    | none => throw .execFormat
    | some (interpreter, extra) =>
      let content ← image t interpreter
      match depth with
      | 0 => throw .tooManyLinks
      | depth + 1 =>
        execute t interpreter (extra ++ Text.encode p.text :: arguments) depth content
termination_by depth

def run (t : Tree) (overlong : Bool) (arguments : List Bytes) (p : Path) :
    Except Errno Launch := do
  let content ← image t p
  if overlong then throw .tooMuchGiven
  execute t p arguments interpreterLimit content

def formatless (t : Tree) (p : Path) : Bool :=
  match run t false [] p, image t p with
  | .error .execFormat, .ok (.data _) => true
  | _, _ => false

def textLimit : Nat := 131072

def totalLimit : Nat := 2097152

def overlong (environment : Environment) : Bool :=
  let sizes := environment.vars.map fun w => w.1.utf8ByteSize + 1 + w.2.utf8ByteSize
  sizes.any (textLimit ≤ ·) || totalLimit < sizes.foldl (fun n size => n + size + 9) 0

end Image
end BuildProbe
