import BuildProbe.Tree
import BuildProbe.Tree.Errno
/-!
Looking paths up. A walk takes a path's pieces one after another, each from a directory: empty
pieces and dots stay, two dots go up, a name goes to its entry. A link on the way continues with
its target's pieces, a link at the end only when it is to be followed, and no walk takes more
than forty links. A slot is the place of a path's last name, whether something is there or not.
-/
namespace BuildProbe
namespace Tree

def linkLimit : Nat := 40

def nameLimit : Nat := 255

/-- The shortest text in bytes that is too long for a path. -/
def pathLimit : Nat := 4096

def nameTooLong (name : String) : Bool := nameLimit < name.utf8ByteSize

def standing (way : List Nat) : Nat := way.headD root

inductive Goal where
  | inside (way : List Nat)
  | at (loc : Location) (e : Entry)

def Goal.entry : Goal → Entry
  | inside way => ⟨standing way, .directory⟩
  | .at _ e => e

def walk (t : Tree) (follow : Bool) (links : Nat) (way : List Nat) :
    List String → Except Errno Goal
  | [] => .ok (.inside way)
  | piece :: rest =>
    if piece = "" ∨ piece = "." then walk t follow links way rest
    else if piece = ".." then walk t follow links way.tail rest
    else if nameTooLong piece then .error .nameTooLong
    else
      match t.get? ⟨standing way, piece⟩ with
      | none => .error .notFound
      | some ⟨id, .directory⟩ => walk t follow links (id :: way) rest
      | some ⟨id, .file content mode⟩ =>
        if rest = [] then .ok (.at ⟨standing way, piece⟩ ⟨id, .file content mode⟩)
        else .error .notADirectory
      | some ⟨id, .link target⟩ =>
        if rest = [] ∧ !follow then .ok (.at ⟨standing way, piece⟩ ⟨id, .link target⟩)
        else match links with
          | 0 => .error .tooManyLinks
          | links + 1 =>
            walk t follow links (if target.absolute then [] else way) (target.pieces ++ rest)
termination_by pieces => (links, pieces.length)

def base (t : Tree) (p : Path) : List Nat := if p.absolute then [] else t.present

def unfit? (p : Path) : Option Errno :=
  if pathLimit ≤ p.text.utf8ByteSize then some .nameTooLong
  else if p.isEmpty then some .notFound
  else none

def resolve (t : Tree) (follow : Bool) (p : Path) : Except Errno Goal :=
  match unfit? p with
  | some e => .error e
  | none => t.walk follow linkLimit (t.base p) p.pieces

inductive Last where
  | root
  | dots
  | name (name : String)
  deriving DecidableEq, Repr

/-- The place of a path's last name in its directory; `slashed` when slashes follow the name. -/
structure Slot where
  directory : Nat
  last : Last
  slashed : Bool
  deriving DecidableEq, Repr

def splitLast (pieces : List String) : List String × Last :=
  match pieces.reverse.dropWhile (· = "") with
  | [] => ([], .root)
  | p :: before => (before.reverse, if p = "." ∨ p = ".." then .dots else .name p)

/-- The slot of a path. Its directory must exist, and links on the way to it are followed. -/
def slot (t : Tree) (p : Path) : Except Errno Slot :=
  match unfit? p with
  | some e => .error e
  | none =>
    let (before, last) := splitLast p.pieces
    match t.walk true linkLimit (t.base p) before with
    | .error e => .error e
    | .ok (.inside way) => .ok ⟨standing way, last, p.pieces.getLast? = some ""⟩
    | .ok (.at ..) => .error .notADirectory

end Tree
end BuildProbe
