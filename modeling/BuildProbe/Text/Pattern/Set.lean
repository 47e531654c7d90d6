import BuildProbe.Text.Pattern.Escape
/-!
Sets of characters in brackets: characters, ranges of them, classes and further sets side by
side, and two such rows with an operation between them. A dash or a closing bracket that comes
first stands for itself.
-/
namespace BuildProbe.Text.Pattern

structure Row where
  count : Nat
  depth : Nat
  deriving DecidableEq, Repr

namespace Row

def empty : Row := ⟨0, 0⟩

def add (r : Row) (depth : Nat) : Row := ⟨r.count + 1, max r.depth depth⟩

def whole (r : Row) : Nat := if r.count ≤ 1 then r.depth else r.depth + 1

end Row

structure Bracket where
  fresh : Bool
  left : Option Nat
  items : Row
  deriving DecidableEq, Repr

namespace Bracket

def start : Bracket := ⟨true, none, .empty⟩

def add (b : Bracket) (depth : Nat) : Bracket := ⟨false, b.left, b.items.add depth⟩

def inner (b : Bracket) : Nat :=
  match b.left with
  | none => b.items.whole
  | some left => max left b.items.whole + 1

def operation (b : Bracket) : Bracket := ⟨false, some b.inner, .empty⟩

def opened? (o : Options) (cs : List Char) : Option (List Char) :=
  match o.skip cs with
  | '^' :: rest => if o.permitsOthers then some rest else none
  | rest => some rest

def names : List String :=
  ["alnum", "alpha", "ascii", "blank", "cntrl", "digit", "graph", "lower", "print", "punct",
    "space", "upper", "word", "xdigit"]

def named? : List Char → Option (Bool × List Char)
  | ':' :: cs =>
    let negated := cs.head? = some '^'
    let cs := if negated then cs.tail else cs
    let name := cs.takeWhile (· != ':')
    match cs.drop name.length with
    | ':' :: ']' :: rest =>
      if names.contains (String.ofList name) then some (negated, rest) else none
    | _ => none
  | _ => none

def single? (o : Options) : List Char → Option (Escape × List Char)
  | [] => none
  | c :: cs => if c = '\\' then Escape.read? o cs else some (.letter ⟨c, false⟩, cs)

def permits (o : Options) : Escape → Bool
  | .letter l => o.permitsMember l
  | .kind negated => o.permitsClass negated
  | .edge _ => false

def member? (o : Options) (cs : List Char) : Option (List Char) := do
  let (first, rest) ← single? o cs
  let alone := if permits o first then some (o.skip rest) else none
  match o.skip rest with
  | '-' :: more =>
    if o.ahead? more = some ']' ∨ o.ahead? more = some '-' then alone
    else match first, ← single? o (o.skip more) with
      | .letter a, (.letter b, rest) =>
        if a.char ≤ b.char ∧ o.permitsMember a ∧ o.permitsMember b then some rest else none
      | _, _ => none
  | _ => alone

end Bracket
end BuildProbe.Text.Pattern
