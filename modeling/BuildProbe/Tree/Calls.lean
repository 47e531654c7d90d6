import BuildProbe.Tree.Walk
/-!
What can be asked of a tree. Each of these is one call: it is refused and changes nothing, or it
is done as a whole. Nothing here fails for want of room or of permission. A file that is still
being made is known by its location.
-/
namespace BuildProbe
namespace Tree

open Text (Bytes)

def openMode : Nat := 0o666

def draftMode : Nat := 0o600

def withPath (p : Path) (call : Except Errno α) : Except Refusal α :=
  if p.hasNul then .error .nulInName else call.mapError .system

def entry (t : Tree) (follow : Bool) (p : Path) : Except Errno Entry :=
  (t.resolve follow p).map Goal.entry

def enter (t : Tree) (p : Path) : Except Errno Nat := do
  match ← t.resolve true p with
  | .inside way => return standing way
  | .at .. => throw .notADirectory

def stat (t : Tree) (p : Path) : Except Refusal Entry := withPath p (t.entry true p)

def lstat (t : Tree) (p : Path) : Except Refusal Entry := withPath p (t.entry false p)

def isDirectory (t : Tree) (p : Path) : Bool :=
  match t.stat p with
  | .ok e => e.isDirectory
  | .error _ => false

def read (t : Tree) (p : Path) : Except Refusal Bytes := do
  match (← t.stat p).node with
  | .file content _ => return content.bytes
  | _ => throw (.system .isADirectory)

def fileMode? (t : Tree) (p : Path) : Option Nat :=
  match t.stat p with
  | .ok ⟨_, .file _ mode⟩ => some mode
  | _ => none

def mkdir (t : Tree) (p : Path) : Except Refusal Tree := withPath p do
  let slot ← t.slot p
  match slot.last with
  | .name name =>
    let loc : Location := ⟨slot.directory, name⟩
    if nameTooLong name then throw .nameTooLong
    else if (t.get? loc).isSome then throw .alreadyExists
    else return t.add loc .directory
  | _ => throw .alreadyExists

def create (t : Tree) (dir : Path) (name : String) : Except Refusal (Location × Tree) :=
  withPath dir do
    let loc : Location := ⟨← t.enter dir, name⟩
    if (t.get? loc).isSome then throw .alreadyExists
    else return (loc, t.add loc (.file (.data []) draftMode))

def append (t : Tree) (loc : Location) (bytes : Bytes) : Tree :=
  match t.get? loc with
  | some ⟨id, .file (.data old) mode⟩ => t.insert loc ⟨id, .file (.data (old ++ bytes)) mode⟩
  | _ => t

def setMode (t : Tree) (loc : Location) (mode : Nat) : Tree :=
  match t.get? loc with
  | some ⟨id, .file content _⟩ => t.insert loc ⟨id, .file content mode⟩
  | _ => t

def refill (t : Tree) (loc : Location) (bytes : Bytes) : Tree :=
  match t.get? loc with
  | some ⟨_, .file _ mode⟩ => t.add loc (.file (.data bytes) mode)
  | _ => t

/-- Where the file is, or would be made, that a path names in the end. So many links at that end
may be followed. -/
def fileAt (t : Tree) (p : Path) : (links : Nat) → Except Errno Location
  | 0 => .error .tooManyLinks
  | links + 1 => do
    let slot ← t.slot p
    match slot.last with
    | .name name =>
      if slot.slashed then throw .isADirectory
      if nameTooLong name then throw .nameTooLong
      match t.get? ⟨slot.directory, name⟩ with
      | some ⟨_, .directory⟩ => throw .isADirectory
      | some ⟨_, .link target⟩ => fileAt t (p.beside target) links
      | _ => return ⟨slot.directory, name⟩
    | _ => throw .isADirectory

def taken (t : Tree) (slot : Slot) : Except Errno Location :=
  match slot.last with
  | .name name =>
    let loc := ⟨slot.directory, name⟩
    if nameTooLong name then .error .nameTooLong
    else if slot.slashed then .error .notADirectory
    else match t.get? loc with
      | some ⟨_, .directory⟩ => .error .isADirectory
      | _ => .ok loc
  | _ => .error .busy

def rename (t : Tree) (source : Location) (target : Path) : Except Errno Tree :=
  if target.hasNul then .error .invalidArgument
  else do
    let loc ← t.taken (← t.slot target)
    match t.get? source with
    | none => throw .notFound
    | some e => return (t.erase source).insert loc e

end Tree
end BuildProbe
