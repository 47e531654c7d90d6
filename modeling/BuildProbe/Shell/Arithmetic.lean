import BuildProbe.Shell.Syntax
/-!
Expressions of the shell. Numbers have 64 bits. Of two operators the one with the lower rank binds
more tightly, and of one rank the first is done first; only a value that an expression needs is
computed.
-/
namespace BuildProbe.Shell.Arithmetic

open Text (Bytes)

inductive Token where
  | number (value : Int)
  | named (name : Bytes)
  | sign (text : String)
  deriving DecidableEq, Repr

inductive Expression where
  | number (value : Int)
  | named (name : Bytes)
  | unary (sign : String) (a : Expression)
  | binary (sign : String) (a b : Expression)
  | choice (test a b : Expression)
  | assign (name : Bytes) (sign : String) (a : Expression)
  deriving Repr

def greatest : Int := 0x7FFFFFFFFFFFFFFF

def wrap (n : Int) : Int := n.bmod 0x10000000000000000

def digitValue (b : UInt8) : Nat :=
  if isDigit b then b.toNat - 0x30 else if 0x61 ≤ b then b.toNat - 0x57 else b.toNat - 0x37

def readDigits (base : Nat) (text : Bytes) : Nat × Bytes :=
  let isOwn (b : UInt8) := (isDigit b || among "abcdefABCDEF" b) && digitValue b < base
  ((text.takeWhile isOwn).foldl (fun n b => base * n + digitValue b) 0, text.dropWhile isOwn)

def readNumber (text : Bytes) : Int × Bytes :=
  let (n, rest) : Nat × Bytes :=
    match text with
    | 0x30 :: x :: d :: rest =>
      if (x = 0x78 ∨ x = 0x58) ∧ (isDigit d || among "abcdefABCDEF" d) then
        readDigits 16 (d :: rest)
      else readDigits 8 text
    | 0x30 :: _ => readDigits 8 text
    | _ => readDigits 10 text
  (min (n : Int) greatest, rest)

def numberBy (read : Bytes → Int × Bytes) (text : Bytes) : Option Int :=
  let (negative, digits) : Bool × Bytes :=
    match text.dropWhile isSpace with
    | 0x2D :: digits => (true, digits)
    | 0x2B :: digits => (false, digits)
    | digits => (false, digits)
  let (n, rest) := read digits
  if digits.head?.any isDigit ∧ rest.all isSpace then some (if negative then -n else n) else none

def number? (text : Bytes) : Option Int := numberBy readNumber text

def decimal? (text : Bytes) : Option Int :=
  numberBy (fun digits => (((readDigits 10 digits).1 : Int), (readDigits 10 digits).2)) text

def signs : List String :=
  ["<<=", ">>=", "<<", ">>", "<=", ">=", "==", "!=", "&&", "||", "*=", "/=", "%=", "+=", "-=",
    "&=", "^=", "|=", "=", "<", ">", "!", "~", "(", ")", "*", "/", "%", "+", "-", "&", "^", "|",
    "?", ":"]

def tokensWithin : (limit : Nat) → Bytes → List Token
  | 0, _ | _, [] => []
  | limit + 1, b :: rest =>
    let text := b :: rest
    if isBlank b ∨ b = newline then tokensWithin limit rest
    else if isDigit b then
      .number (readNumber text).1 :: tokensWithin limit (readNumber text).2
    else if startsName b then
      .named (text.takeWhile inName) :: tokensWithin limit (text.dropWhile inName)
    else
      match signs.find? fun sign => (Text.encode sign).isPrefixOf text with
      | some sign => .sign sign :: tokensWithin limit (text.drop sign.utf8ByteSize)
      | none => [.sign "\x00"]

def tokens (text : Bytes) : List Token := tokensWithin text.length text

def ranks : List (String × Nat) :=
  [("*", 0), ("/", 0), ("%", 0), ("+", 1), ("-", 1), ("<<", 2), (">>", 2), ("<", 3), ("<=", 3),
    (">", 3), (">=", 3), ("==", 4), ("!=", 4), ("&", 5), ("^", 6), ("|", 7), ("&&", 8), ("||", 9)]

def rank? : Token → Option (String × Nat)
  | .sign text => ranks.find? (·.1 = text)
  | _ => none

def assigning? : Token → Option String
  | .sign text =>
    if text = "=" then some ""
    else if ["<<=", ">>=", "*=", "/=", "%=", "+=", "-=", "&=", "^=", "|="].contains text then
      some ((text.dropEnd 1).toString)
    else none
  | _ => none

abbrev Parsed := Except String (Expression × List Token)

mutual

def assignment : (limit : Nat) → List Token → Parsed
  | 0, _ => .error "expecting primary"
  | limit + 1, ts =>
    match ts with
    | .named name :: sign :: rest =>
      match assigning? sign with
      | some own => (assignment limit rest).map fun (a, rest) => (.assign name own a, rest)
      | none => conditional limit ts
    | _ => conditional limit ts

def conditional : (limit : Nat) → List Token → Parsed
  | 0, _ => .error "expecting primary"
  | limit + 1, ts => do
    let (test, rest) ← binary limit 9 ts
    match rest with
    | .sign "?" :: rest =>
      let (a, rest) ← assignment limit rest
      match rest with
      | .sign ":" :: rest =>
        let (b, rest) ← conditional limit rest
        return (.choice test a b, rest)
      | _ => throw "expecting ':'"
    | _ => return (test, rest)

def binary : (limit : Nat) → (rank : Nat) → List Token → Parsed
  | 0, _, _ => .error "expecting primary"
  | limit + 1, rank, ts => do
    let (a, rest) ← primary limit ts
    further limit rank a rest

def further : (limit : Nat) → (rank : Nat) → Expression → List Token → Parsed
  | 0, _, a, ts => .ok (a, ts)
  | limit + 1, rank, a, ts =>
    match ts with
    | [] => .ok (a, ts)
    | t :: rest =>
      match rank? t with
      | none => .ok (a, ts)
      | some (sign, own) =>
        if rank < own then .ok (a, ts)
        else do
          let (b, rest) ← if own = 0 then primary limit rest else binary limit (own - 1) rest
          further limit rank (.binary sign a b) rest

def primary : (limit : Nat) → List Token → Parsed
  | 0, _ => .error "expecting primary"
  | limit + 1, ts =>
    match ts with
    | .number n :: rest => .ok (.number n, rest)
    | .named name :: rest => .ok (.named name, rest)
    | .sign "(" :: rest => do
      let (a, rest) ← assignment limit rest
      match rest with
      | .sign ")" :: rest => return (a, rest)
      | _ => throw "expecting ')'"
    | .sign text :: rest =>
      if ["+", "-", "!", "~"].contains text then
        (primary limit rest).map fun (a, rest) => (.unary text a, rest)
      else .error "expecting primary"
    | [] => .error "expecting primary"

end

def parse (text : Bytes) : Except String (Expression × Bool) := do
  let ts := tokens text
  let (a, rest) ← assignment (20 * ts.length + 20) ts
  return (a, rest.isEmpty)

def truth (b : Bool) : Int := if b then 1 else 0

def bitwise (f : UInt64 → UInt64 → UInt64) (a b : Int) : Int :=
  wrap (f (UInt64.ofInt a) (UInt64.ofInt b)).toNat

def power (b : Int) : Int := (1 <<< (b % 64).toNat : Nat)

def combine? (sign : String) (a b : Int) : Option Int :=
  if sign = "*" then some (wrap (a * b))
  else if sign = "/" ∨ sign = "%" then
    if b = 0 ∨ (b = -1 ∧ a = -greatest - 1) then none
    else some (if sign = "/" then a.tdiv b else a.tmod b)
  else if sign = "+" then some (wrap (a + b))
  else if sign = "-" then some (wrap (a - b))
  else if sign = "<<" then some (wrap (a * power b))
  else if sign = ">>" then some (a.fdiv (power b))
  else if sign = "<" then some (truth (a < b))
  else if sign = "<=" then some (truth (a ≤ b))
  else if sign = ">" then some (truth (a > b))
  else if sign = ">=" then some (truth (a ≥ b))
  else if sign = "==" then some (truth (a = b))
  else if sign = "!=" then some (truth (a ≠ b))
  else if sign = "&" then some (bitwise (· &&& ·) a b)
  else if sign = "^" then some (bitwise (· ^^^ ·) a b)
  else if sign = "|" then some (bitwise (· ||| ·) a b)
  else none

structure Access (m : Type → Type) where
  get : Bytes → m Int
  set : Bytes → Int → m Unit
  fail : String → m Int

namespace Expression

def value [Monad m] (access : Access m) : Expression → m Int
  | number n => pure n
  | named name => access.get name
  | unary sign a => do
    let a ← a.value access
    return if sign = "-" then wrap (-a) else if sign = "!" then truth (a = 0)
      else if sign = "~" then -a - 1 else a
  | binary sign a b => do
    let a ← a.value access
    if sign = "&&" ∧ a = 0 then return 0
    if sign = "||" ∧ a ≠ 0 then return 1
    let b ← b.value access
    if sign = "&&" ∨ sign = "||" then return truth (b ≠ 0)
    match combine? sign a b with
    | some n => return n
    | none => access.fail "division by zero"
  | choice test a b => do
    if (← test.value access) ≠ 0 then a.value access else b.value access
  | assign name sign a => do
    let a ← a.value access
    let n ←
      if sign = "" then pure a
      else
        match combine? sign (← access.get name) a with
        | some n => pure n
        | none => access.fail "division by zero"
    access.set name n
    return n

end Expression
end BuildProbe.Shell.Arithmetic
