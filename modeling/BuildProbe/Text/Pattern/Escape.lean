import BuildProbe.Text.Pattern.Options
/-!
What a backslash in a pattern and the characters behind it stand for: a character, a class of
characters or a place in the text. There are no closing braces, so no character has its number in
braces and no class its name.
-/
namespace BuildProbe.Text.Pattern

inductive Escape where
  | letter (l : Letter)
  | kind (negated : Bool)
  | edge (ofWord : Bool)
  deriving DecidableEq, Repr

namespace Escape

def hexDigit? (c : Char) : Option Nat :=
  if c.isDigit then some (c.toNat - 48)
  else if 'a' ≤ c ∧ c ≤ 'f' then some (c.toNat - 87)
  else if 'A' ≤ c ∧ c ≤ 'F' then some (c.toNat - 55)
  else none

def digits? (c : Char) : Option Nat :=
  if c = 'x' then some 2 else if c = 'u' then some 4 else if c = 'U' then some 8 else none

def number? (o : Options) : Nat → Nat → List Char → Option (Nat × List Char)
  | 0, n, cs => some (n, cs)
  | _ + 1, _, [] => none
  | k + 1, n, c :: cs => do number? o k (16 * n + (← hexDigit? c)) (o.skip cs)

def mark? (c : Char) : Option Escape :=
  if "dsw".toList.contains c then some (.kind false)
  else if "DSW".toList.contains c then some (.kind true)
  else if "bB<>".toList.contains c then some (.edge true)
  else if "Az".toList.contains c then some (.edge false)
  else if Options.isAscii c ∧ !c.isAlphanum ∨ "aftnrv".toList.contains c then
    some (.letter ⟨c, false⟩)
  else none

def control (c : Char) : Char :=
  (([('a', '\x07'), ('f', '\x0C'), ('t', '\t'), ('n', '\n'), ('r', '\r'), ('v', '\x0B')].find?
    (·.1 = c)).map (·.2)).getD c

def read? (o : Options) : List Char → Option (Escape × List Char)
  | [] => none
  | c :: cs =>
    match digits? c with
    | some k => do
      let (n, rest) ← number? o k 0 (o.skip cs)
      if n.isValidChar then some (.letter ⟨Char.ofNat n, c = 'x'⟩, rest) else none
    | none => do
      match ← mark? c with
      | .letter l => some (.letter ⟨control l.char, l.ofByte⟩, cs)
      | escape => some (escape, cs)

end Escape
end BuildProbe.Text.Pattern
