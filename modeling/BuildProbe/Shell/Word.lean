import BuildProbe.Shell.Syntax
/-!
Reading words. A reader stands somewhere in a script and knows the line. A backslash before a
line's end joins the next line to it, except between single quotes. What a word holds inside of
quotes, braces and parentheses is read by the readers of the next depth.
-/
namespace BuildProbe.Shell

open Text (Bytes)

inductive Token where
  | finish
  | newline
  | mark (text : String)
  | redirection (descriptor : Nat) (sign : String)
  | word (word : Word)

def Token.isFinish : Token → Bool
  | .finish => true
  | _ => false

structure Announced where
  number : Nat
  delimiter : Bytes
  verbatim : Bool
  indented : Bool

structure Reader where
  rest : Bytes
  line : Nat
  held : Option Token
  announced : List Announced
  documents : List Document
  nextDocument : Nat

structure Fault where
  line : Nat
  what : String
  deriving DecidableEq, Repr

abbrev Reading := EStateM Fault Reader

namespace Reading

def fail (what : String) : Reading α := do throw ⟨(← get).line, what⟩

def repeated (step : α → Reading (α ⊕ β)) (a : α) : (limit : Nat) → Reading β
  | 0 => fail "too long"
  | limit + 1 => do
    match ← step a with
    | .inl a => repeated step a limit
    | .inr b => return b

def loop (start : α) (step : α → Reading (α ⊕ β)) : Reading β := do
  repeated step start ((← get).rest.length + 2)

def joined : Nat → Bytes → Nat × Bytes
  | line, 0x5C :: 0x0A :: rest => joined (line + 1) rest
  | line, rest => (line, rest)

def peekRaw : Reading (Option UInt8) := do return (← get).rest.head?

def peek : Reading (Option UInt8) := do
  modify fun r => { r with line := (joined r.line r.rest).1, rest := (joined r.line r.rest).2 }
  peekRaw

def skip : Reading Unit :=
  modify fun r =>
    { r with
      line := if r.rest.head? = some newline then r.line + 1 else r.line
      rest := r.rest.tail }

def peekIs (b : UInt8) : Reading Bool := do return (← peek) = some b

def accept (b : UInt8) : Reading Bool := do
  if ← peekIs b then skip; return true
  return false

def span (kind : UInt8 → Bool) : Reading Bytes := do
  let run := (← get).rest.takeWhile kind
  modify fun r =>
    { r with line := r.line + run.count newline, rest := r.rest.drop run.length }
  return run

end Reading

inductive Place where
  | plain
  | double
  | braces (quoted : Bool)
  | arithmetic
  | document
  deriving DecidableEq, Repr

/-- How far a list of commands goes: to the line's end, or to a word that ends it, before which
there must be a command unless it is a branch. -/
inductive Extent where
  | line
  | body
  | branch
  deriving DecidableEq, Repr

structure Inner where
  word : Place → Reading Word
  list : Extent → Reading (Option Command)
  substitution : Reading Command
  script : Bytes → Reading Command

open Reading

def Place.quoted : Place → Bool
  | plain => false
  | braces quoted => quoted
  | _ => true

def Place.escapes (place : Place) (b : UInt8) : Bool :=
  match place with
  | .plain | .braces false => true
  | .braces true => among "$\x60\"\\\x7d" b
  | .document => among "$\x60\\" b
  | _ => among "$\x60\"\\" b

def addText (quoted : Bool) (bytes : Bytes) : Word → Word
  | .text q before :: rest =>
    if q = quoted then .text q (before ++ bytes) :: rest
    else .text quoted bytes :: .text q before :: rest
  | rest => .text quoted bytes :: rest

def bracedName : Reading (Bytes × Bool) := do
  let some b ← peek | return ([], false)
  if startsName b then return (← span inName, false)
  if isDigit b then return (← span isDigit, false)
  unless isMark b do return ([], false)
  skip
  if b ≠ 0x23 then return ([b], false)
  let some c ← peek | return ([b], false)
  if startsName c then return (← span inName, true)
  if isDigit c then return (← span isDigit, true)
  if isMark c ∧ (← get).rest[1]? = some 0x7D then skip; return ([c], true)
  return ([b], false)

def readUse (name : Bytes) (length : Bool) : Reading Use := do
  if name = [] then
    unless ← peekIs 0x7D do modify fun r => { r with rest := r.rest.tail }
    return .unknown
  if length then return if ← peekIs 0x7D then .length else .unknown
  let empty ← accept 0x3A
  let some b ← peek | return .unknown
  let useOf : Option Use :=
    if b = 0x2D then some (.default empty) else if b = 0x3D then some (.assign empty)
    else if b = 0x3F then some (.demand empty) else if b = 0x2B then some (.replace empty)
    else none
  match useOf with
  | some use => skip; return use
  | none =>
    if b = 0x7D then return .value
    modify fun r => { r with rest := r.rest.tail }
    unless (b = 0x23 ∨ b = 0x25) ∧ !empty do return .unknown
    return .trim (b = 0x25) (← accept b)

def braced (inner : Inner) (quoted : Bool) : Reading Piece := do
  let (name, length) ← bracedName
  let use ← readUse name length
  let quotedWord :=
    match use with
    | .trim .. => false
    | _ => quoted
  let word ← inner.word (.braces quotedWord)
  return .parameter quoted name use word

def dollar (inner : Inner) (quoted : Bool) : Reading Piece := do
  skip
  let some b ← peek | return .text quoted [0x24]
  if b = 0x28 then
    skip
    if ← accept 0x28 then return .arithmetic quoted (← inner.word .arithmetic)
    return .output quoted (← inner.substitution)
  if b = 0x7B then
    skip
    return ← braced inner quoted
  if startsName b then return .parameter quoted (← span inName) .value []
  if isDigit b ∨ isMark b then
    skip
    return .parameter quoted [b] .value []
  return .text quoted [0x24]

def backquoted (quoted : Bool) : Reading Bytes :=
  loop [] fun script => do
    let some b ← peek | fail "EOF in backquote substitution"
    skip
    if b = 0x60 then return .inr script
    unless b = 0x5C do return .inl (script ++ [b])
    let some c ← peekRaw | return .inl (script ++ [b])
    skip
    if among "\\\x60$" c ∨ (quoted ∧ c = 0x22) then return .inl (script ++ [c])
    return .inl (script ++ [b, c])

def singleQuoted : Reading Bytes := do
  skip
  let text ← span (· != 0x27)
  if (← peekRaw).isNone then fail "Unterminated quoted string"
  skip
  return text

def escaped (place : Place) : Reading (Bool × Bytes) := do
  skip
  let some b ← peekRaw | return (true, [0x5C])
  skip
  return (true, if place.escapes b then [b] else [0x5C, b])

def Place.atEnd (place : Place) (word : Word) : Reading Word :=
  match place with
  | plain | document => return word.reverse
  | braces false => fail "Missing '\x7d'"
  | arithmetic => fail "Missing '))'"
  | _ => fail "Unterminated quoted string"

def wordStep (inner : Inner) (place : Place) :
    Word × Nat → Reading ((Word × Nat) ⊕ Word)
  | (word, parentheses) => do
    let some b ← peek | return .inr (← place.atEnd word)
    let goOn (quoted : Bool) (bytes : Bytes) : (Word × Nat) ⊕ Word :=
      .inl (addText quoted bytes word, parentheses)
    if b = 0x5C then
      let (quoted, bytes) ← escaped place
      return goOn quoted bytes
    if b = 0x24 then
      match ← dollar inner place.quoted with
      | .text quoted bytes => return goOn quoted bytes
      | piece => return .inl (piece :: word, parentheses)
    if b = 0x60 then
      skip
      let command ← inner.script (← backquoted place.quoted)
      return .inl (.output place.quoted command :: word, parentheses)
    match place with
    | .plain => if endsWord b then return .inr word.reverse
    | .double => if b = 0x22 then skip; return .inr word.reverse
    | .braces _ => if b = 0x7D then skip; return .inr word.reverse
    | .arithmetic =>
      if b = 0x28 then
        skip
        return .inl (addText true [b] word, parentheses + 1)
      if b = 0x29 then
        skip
        if parentheses > 0 then return .inl (addText true [b] word, parentheses - 1)
        if ← accept b then return .inr word.reverse
        return goOn true [b]
    | .document => pure ()
    if b = 0x22 ∧ place ≠ .document ∧ place ≠ .arithmetic then
      skip
      let pieces ← inner.word .double
      if pieces = [] then return goOn true []
      return .inl (pieces.reverse ++ word, parentheses)
    if b = 0x27 ∧ !place.quoted then return goOn true (← singleQuoted)
    if inName b then return goOn place.quoted (← span inName)
    skip
    return goOn place.quoted [b]

def readWord (inner : Inner) (place : Place) : Reading Word := loop ([], 0) (wordStep inner place)

def redirectionSign (b : UInt8) : Reading String := do
  if b = 0x3E then
    if ← accept 0x3E then return ">>"
    if ← accept 0x7C then return ">|"
    if ← accept 0x26 then return ">&"
    return ">"
  if ← accept 0x3C then return if ← accept 0x2D then "<<-" else "<<"
  if ← accept 0x26 then return "<&"
  if ← accept 0x3E then return "<>"
  return "<"

def wordToken (inner : Inner) : Reading Token := do
  let word ← readWord inner .plain
  let some b ← peek | return .word word
  unless b = 0x3C ∨ b = 0x3E do return .word word
  let own := if b = 0x3E then 1 else 0
  let descriptor? :=
    match word with
    | [] => some own
    | [.text false [digit]] => if isDigit digit then some (number [digit]) else none
    | _ => none
  let some descriptor := descriptor? | return .word word
  skip
  return .redirection descriptor (← redirectionSign b)

def skipBlanks : Reading Unit :=
  loop () fun _ => do
    let some b ← peek | return .inr ()
    if isBlank b then
      skip
      return .inl ()
    if b = 0x23 then
      let _ ← span (· != newline)
    return .inr ()

def token (inner : Inner) : Reading Token := do
  skipBlanks
  let some b ← peek | return .finish
  if b = newline then
    skip
    return .newline
  if among "&|;" b then
    skip
    let text := Text.decode [b]
    return .mark (if ← accept b then text ++ text else text)
  if among "()" b then
    skip
    return .mark (Text.decode [b])
  wordToken inner

end BuildProbe.Shell
