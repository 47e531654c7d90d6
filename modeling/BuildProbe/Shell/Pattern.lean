import BuildProbe.Shell.Syntax
/-!
Patterns of the shell. A star stands for any text, a question mark for any byte, and brackets for
one of the bytes in them, or for one that is not. Quoted bytes stand for themselves, and so does
a bracket that is not closed.
-/
namespace BuildProbe.Shell

open Text (Bytes)

namespace Pattern

inductive Member where
  | range (low high : UInt8)
  | kind (name : Bytes)
  deriving DecidableEq, Repr

inductive Atom where
  | exactly (byte : UInt8)
  | one
  | many
  | set (negated : Bool) (members : List Member)
  deriving DecidableEq, Repr

def isUpper (b : UInt8) : Bool := 0x41 ≤ b && b ≤ 0x5A
def isLower (b : UInt8) : Bool := 0x61 ≤ b && b ≤ 0x7A
def isAlpha (b : UInt8) : Bool := isUpper b || isLower b
def isPrint (b : UInt8) : Bool := 0x20 ≤ b && b ≤ 0x7E

def isHex (b : UInt8) : Bool := isDigit b || (0x41 ≤ b && b ≤ 0x46) || (0x61 ≤ b && b ≤ 0x66)

def kinds : List (String × (UInt8 → Bool)) :=
  [("alnum", fun b => isAlpha b || isDigit b), ("alpha", isAlpha), ("blank", isBlank),
    ("cntrl", fun b => b < 0x20 || b == 0x7F), ("digit", isDigit),
    ("graph", fun b => isPrint b && b != 0x20), ("lower", isLower), ("print", isPrint),
    ("punct", fun b => isPrint b && b != 0x20 && !isAlpha b && !isDigit b), ("space", isSpace),
    ("upper", isUpper), ("xdigit", isHex)]

def Member.has (m : Member) (b : UInt8) : Bool :=
  match m with
  | range low high => low ≤ b && b ≤ high
  | kind name => kinds.any fun (own, test) => Text.encode own == name && test b

def kindName? (glyphs : List Glyph) : Option (Bytes × List Glyph) :=
  let name := (glyphs.map (·.byte)).takeWhile isLower
  match glyphs.drop name.length with
  | ⟨0x3A, false⟩ :: ⟨0x5D, false⟩ :: rest => some (name, rest)
  | _ => none

def members? (first : Bool) : List Glyph → (limit : Nat) → Option (List Member × List Glyph)
  | _, 0 | [], _ => none
  | g :: rest, limit + 1 =>
    if g = ⟨0x5D, false⟩ ∧ !first then some ([], rest)
    else
      let (member, rest) :=
        match g, rest with
        | ⟨0x5B, false⟩, ⟨0x3A, false⟩ :: after =>
          match kindName? after with
          | some (name, after) => (Member.kind name, after)
          | none => (.range g.byte g.byte, rest)
        | _, ⟨0x2D, false⟩ :: high :: after =>
          if high = ⟨0x5D, false⟩ then (.range g.byte g.byte, rest)
          else (.range g.byte high.byte, after)
        | _, _ => (.range g.byte g.byte, rest)
      (members? false rest limit).map fun (others, rest) => (member :: others, rest)

def set? (glyphs : List Glyph) : Option (Atom × List Glyph) :=
  match glyphs with
  | ⟨0x21, false⟩ :: rest =>
    (members? true rest rest.length).map fun (members, rest) => (.set true members, rest)
  | _ => (members? true glyphs glyphs.length).map fun (members, rest) => (.set false members, rest)

def atomsWithin : (limit : Nat) → List Glyph → List Atom
  | 0, _ | _, [] => []
  | limit + 1, g :: rest =>
    if g.quoted then .exactly g.byte :: atomsWithin limit rest
    else if g.byte = 0x2A then .many :: atomsWithin limit rest
    else if g.byte = 0x3F then .one :: atomsWithin limit rest
    else if g.byte = 0x5B then
      match set? rest with
      | some (atom, rest) => atom :: atomsWithin limit rest
      | none => .exactly g.byte :: atomsWithin limit rest
    else .exactly g.byte :: atomsWithin limit rest

def atoms (glyphs : List Glyph) : List Atom := atomsWithin glyphs.length glyphs

def Atom.has (a : Atom) (b : UInt8) : Bool :=
  match a with
  | exactly own => own == b
  | one | many => true
  | set negated members => (members.any (·.has b)) != negated

def openings : List Atom → List (List Atom)
  | .many :: rest => (.many :: rest) :: openings rest
  | atoms => [atoms]

def distinct (patterns : List (List Atom)) : List (List Atom) :=
  patterns.foldr (fun p kept => if kept.any (·.length = p.length) then kept else p :: kept) []

def feed (patterns : List (List Atom)) (b : UInt8) : List (List Atom) :=
  distinct <| patterns.flatMap fun
    | [] => []
    | .many :: rest => openings (.many :: rest)
    | atom :: rest => if atom.has b then openings rest else []

def accepts (atoms : List Atom) (text : Bytes) : Bool :=
  (text.foldl feed (openings atoms)).any (·.isEmpty)

def trim (atEnd longest : Bool) (pattern : List Atom) (text : Bytes) : Bytes :=
  let cuts := List.range (text.length + 1)
  let parts : List (Bytes × Bytes) := cuts.map fun n =>
    if atEnd then (text.drop (text.length - n), text.take (text.length - n))
    else (text.take n, text.drop n)
  let parts := if longest then parts.reverse else parts
  ((parts.find? (accepts pattern ·.1)).map (·.2)).getD text

def isPattern (glyphs : List Glyph) : Bool :=
  (atoms glyphs).any fun
    | .exactly _ => false
    | _ => true

end Pattern
end BuildProbe.Shell
