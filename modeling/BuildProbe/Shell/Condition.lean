import BuildProbe.Probe.Image
import BuildProbe.Shell.Arithmetic
/-!
Conditions as words: about texts, numbers and files, joined by signs for both, for either and for
not. A word that could be a sign is one where it has something to be about. With three words the
middle one decides.
-/
namespace BuildProbe.Shell.Condition

open Text (Bytes)

structure Fault where
  about : Bytes
  what : String
  deriving DecidableEq, Repr

inductive Kind where
  | nothing
  | operand
  | unary
  | binary
  | negation
  | both
  | either
  | opening
  | closing
  deriving DecidableEq, Repr

def isOne (words : List String) (word : Bytes) : Bool := words.any (Text.encode · == word)

def unaries : List String :=
  ["-r", "-w", "-x", "-e", "-f", "-d", "-c", "-b", "-p", "-u", "-g", "-k", "-s", "-t", "-z", "-n",
    "-h", "-O", "-G", "-L", "-S"]

def binaries : List String :=
  ["=", "!=", "<", ">", "-eq", "-ne", "-ge", "-gt", "-le", "-lt", "-nt", "-ot", "-ef"]

def isBinary (word : Bytes) : Bool := isOne binaries word

def standsAlone : List Bytes → Bool
  | [] => true
  | [_] => false
  | word :: _ => isBinary word

def kind : List Bytes → Kind
  | [] => .nothing
  | word :: rest =>
    if isOne unaries word then if standsAlone rest then .operand else .unary
    else if isBinary word then .binary
    else if isOne ["!"] word then .negation
    else if isOne ["-a"] word then .both
    else if isOne ["-o"] word then .either
    else if isOne ["("] word then if rest.isEmpty then .operand else .opening
    else if isOne [")"] word then .closing
    else .operand

def modeHas (t : Tree) (p : Path) (bits : Nat) : Bool := (t.fileMode? p).any (· &&& bits != 0)

def unaryHolds (t : Tree) (sign word : Bytes) : Bool :=
  let p := Image.path word
  let is (text : String) : Bool := Text.encode text == sign
  let found := (t.stat p).toOption
  if is "-z" then word.isEmpty
  else if is "-n" then !word.isEmpty
  else if is "-d" then t.isDirectory p
  else if is "-f" then (t.fileMode? p).isSome
  else if is "-s" then t.isDirectory p || (t.read p).toOption.any (!·.isEmpty)
  else if is "-x" then t.isDirectory p || modeHas t p Image.executeBits
  else if is "-h" ∨ is "-L" then
    match t.lstat p with
    | .ok ⟨_, .link _⟩ => true
    | _ => false
  else if is "-u" then modeHas t p 0o4000
  else if is "-g" then modeHas t p 0o2000
  else if is "-k" then modeHas t p 0o1000
  else if is "-c" ∨ is "-b" ∨ is "-p" ∨ is "-S" ∨ is "-t" then false
  else found.isSome

def number (word : Bytes) : Except Fault Int :=
  let bad : Fault := ⟨Text.encode "Illegal number: " ++ word, ""⟩
  match Arithmetic.decimal? word with
  | some n => if n.natAbs ≤ 0x7FFFFFFFFFFFFFFF then .ok n else .error bad
  | none => .error bad

def binaryHolds (t : Tree) (a sign b : Bytes) : Except Fault Bool :=
  let is (text : String) : Bool := Text.encode text == sign
  let compared (holds : Int → Int → Bool) : Except Fault Bool := do
    return holds (← number a) (← number b)
  let identity (word : Bytes) : Option Nat := (t.stat (Image.path word)).toOption.map (·.id)
  let newer (a b : Bytes) : Bool :=
    match identity a, identity b with
    | some m, some n => n < m
    | _, _ => false
  if is "=" then .ok (a == b)
  else if is "!=" then .ok (a != b)
  else if is "<" then .ok (decide (a < b))
  else if is ">" then .ok (decide (b < a))
  else if is "-eq" then compared (· == ·)
  else if is "-ne" then compared (· != ·)
  else if is "-ge" then compared (· ≥ ·)
  else if is "-gt" then compared (· > ·)
  else if is "-le" then compared (· ≤ ·)
  else if is "-lt" then compared (· < ·)
  else if is "-nt" then .ok (newer a b)
  else if is "-ot" then .ok (newer b a)
  else if is "-ef" then .ok ((identity a).isSome && identity a == identity b)
  else .ok false

abbrev Part := Except Fault (Bool × Bytes × List Bytes)

mutual

def either (t : Tree) (operand : Bool) : (limit : Nat) → List Bytes → Part
  | 0, words => .ok (false, [], words)
  | limit + 1, words => do
    let (a, last, rest) ← both t operand limit words
    if kind rest = .either then
      let (b, last, rest) ← either t false limit rest.tail
      return (a || b, last, rest)
    return (a, last, rest)

def both (t : Tree) (operand : Bool) : (limit : Nat) → List Bytes → Part
  | 0, words => .ok (false, [], words)
  | limit + 1, words => do
    let (a, last, rest) ← negatable t operand limit words
    if kind rest = .both then
      let (b, last, rest) ← both t false limit rest.tail
      return (a && b, last, rest)
    return (a, last, rest)

def negatable (t : Tree) (operand : Bool) : (limit : Nat) → List Bytes → Part
  | 0, words => .ok (false, [], words)
  | limit + 1, words => do
    if !operand ∧ kind words = .negation then
      match words.tail with
      | [] => return (true, words.headD [], [])
      | rest => return (← negatable t false limit rest).map (!·) id
    primary t operand limit words

def primary (t : Tree) (operand : Bool) : (limit : Nat) → List Bytes → Part
  | 0, words => .ok (false, [], words)
  | limit + 1, words =>
    match words, if operand then .operand else kind words with
    | [], _ => .ok (false, [], [])
    | _ :: rest, .opening => do
      if kind rest = .closing then return (false, rest.headD [], rest.tail)
      let (a, _, rest) ← either t false limit rest
      if kind rest ≠ .closing then throw ⟨[], "closing paren expected"⟩
      return (a, rest.headD [], rest.tail)
    | sign :: rest, .unary =>
      match rest with
      | [] => .error ⟨sign, ": argument expected"⟩
      | word :: rest => .ok (unaryHolds t sign word, word, rest)
    | a :: rest, _ =>
      match rest, kind rest with
      | sign :: b :: rest, .binary => do return (← binaryHolds t a sign b, b, rest)
      | [sign], .binary => .error ⟨sign, ": argument expected"⟩
      | _, _ => .ok (!a.isEmpty, a, rest)

end

def whole (t : Tree) (operand : Bool) (words : List Bytes) : Except Fault Bool := do
  let (a, last, rest) ← either t operand (8 * words.length + 8) words
  unless rest.isEmpty do
    throw ⟨last, if last = [] then "unexpected operator" else ": unexpected operator"⟩
  return a

def holds (t : Tree) (words : List Bytes) : Except Fault Bool :=
  match words with
  | [] => .ok false
  | [a, sign, b] =>
    if isBinary sign then whole t true words
    else if isOne ["("] a ∧ isOne [")"] b then whole t false [sign]
    else if isOne ["!"] a then (holds t [sign, b]).map (!·)
    else whole t false words
  | [a, b, c, d] =>
    if isOne ["("] a ∧ isOne [")"] d then whole t false [b, c]
    else if isOne ["!"] a then (holds t [b, c, d]).map (!·)
    else whole t false words
  | _ => whole t false words
termination_by words.length

end BuildProbe.Shell.Condition
