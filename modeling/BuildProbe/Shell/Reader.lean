import BuildProbe.Shell.Word
/-!
Reading commands. A script is read one whole command at a time, which is as far as the end of a
line, so that a mistake in a later line does not keep an earlier one from being run. A token that
cannot stand where it does is a fault, named by the token and by what was expected.
-/
namespace BuildProbe.Shell

open Text (Bytes)
open Reading

def keywords : List String :=
  ["!", "case", "do", "done", "elif", "else", "esac", "fi", "for", "if", "in", "then", "until",
    "while", "\x7b", "\x7d"]

def specialNames : List String :=
  [".", ":", "break", "continue", "eval", "exec", "exit", "export", "readonly", "return", "set",
    "shift", "times", "trap", "unset"]

namespace Token

def name : Token → String
  | finish => "end of file"
  | newline => "newline"
  | mark text => "\"" ++ text ++ "\""
  | redirection .. => "redirection"
  | word _ => "word"

def isMark (t : Token) (text : String) : Bool :=
  match t with
  | mark own => own == text
  | _ => false

def endsList : Token → Bool
  | finish => true
  | mark text =>
    [")", ";;", "do", "done", "elif", "else", "esac", "fi", "then", "\x7d"].contains text
  | _ => false

def asKeyword (t : Token) : Token :=
  match t with
  | word w =>
    match plain? w with
    | some bytes =>
      let text := Text.decode bytes
      if keywords.contains text then mark text else t
    | none => t
  | _ => t

end Token

def unexpected (t : Token) : Reading α := fail (t.name ++ " unexpected")

def unexpectedInstead (t : Token) (expected : String) : Reading α :=
  fail (t.name ++ " unexpected (expecting " ++ expected ++ ")")

def putBack (t : Token) : Reading Unit := modify fun r => { r with held := some t }

/-! ## Documents -/

def documentText (a : Announced) : Reading Bytes :=
  loop [] fun text => do
    if (← peekRaw).isNone then return .inr text
    let line ← span (· != newline)
    let line := if a.indented then line.dropWhile (· == 0x09) else line
    let ended := (← peekRaw).isSome
    skip
    if line = a.delimiter then return .inr text
    return .inl (text ++ line ++ if ended then [newline] else [])

def aside (text : Bytes) (line : Nat) (reading : Reading α) : Reading α := do
  let r ← get
  set { r with rest := text, line := line, held := none }
  let result ← reading
  modify fun inside => { inside with rest := r.rest, line := r.line, held := r.held }
  return result

def documents (inner : Inner) : Reading Unit := do
  let announced := (← get).announced
  modify fun r => { r with announced := [] }
  for a in announced do
    let line := (← get).line
    let text ← documentText a
    let word ←
      if a.verbatim then pure [Piece.text true text]
      else aside text line (inner.word .document)
    modify fun r => { r with documents := ⟨a.number, word⟩ :: r.documents }

/-! ## Tokens where they stand -/

def next (inner : Inner) (lines keyword : Bool) : Reading Token := do
  let held := (← get).held
  modify fun r => { r with held := none }
  let t ← match held with
    | some t => pure t
    | none => token inner
  let t ←
    match t with
    | .newline =>
      if lines then
        loop () fun _ => do
          documents inner
          match ← token inner with
          | .newline => return .inl ()
          | t => return .inr t
      else pure t
    | t => pure t
  return if keyword then t.asKeyword else t

def expect (inner : Inner) (text : String) (lines keyword : Bool) : Reading Unit := do
  let t ← next inner lines keyword
  unless t.isMark text do unexpectedInstead t (Token.mark text).name

def acceptMark (inner : Inner) (text : String) (lines keyword : Bool) : Reading Bool := do
  let t ← next inner lines keyword
  if t.isMark text then return true
  putBack t
  return false

/-! ## Redirections -/

def unquoted (word : Word) : Bytes :=
  word.flatMap fun
    | .text _ bytes => bytes
    | .parameter _ name .. => 0x24 :: name
    | _ => []

def redirection (inner : Inner) (descriptor : Nat) (sign : String) : Reading Redirection := do
  let t ← next inner false false
  let .word word := t | unexpected t
  let opening (o : Opening) : Redirection := .on descriptor o word
  if sign = "<" then return opening .read
  if sign = ">" then return opening .write
  if sign = ">|" then return opening .overwrite
  if sign = ">>" then return opening .append
  if sign = "<>" then return opening .update
  if sign = "<<" ∨ sign = "<<-" then
    let r ← get
    let announced : Announced :=
      ⟨r.nextDocument, unquoted word, word.any isQuoted, sign = "<<-"⟩
    set { r with
      announced := r.announced ++ [announced]
      nextDocument := r.nextDocument + 1 }
    return .on descriptor (.document announced.number) []
  return opening .duplicate

def redirections (inner : Inner) : Reading (List Redirection) :=
  loop [] fun found => do
    match ← next inner false true with
    | .redirection descriptor sign => return .inl (found ++ [← redirection inner descriptor sign])
    | t =>
      putBack t
      return .inr found

/-! ## Commands -/

def body (inner : Inner) : Reading Command := do
  return (← inner.list .body).getD .nothing

structure Simple where
  assignments : List (Bytes × Word)
  words : List Word
  redirections : List Redirection

def function (inner : Inner) (command : Reading Command) (name : Word) : Reading Command := do
  let t ← next inner false false
  unless t.isMark ")" do unexpectedInstead t "\")\""
  match plain? name with
  | some bytes =>
    if !isName bytes ∨ specialNames.contains (Text.decode bytes) then fail "Bad function name"
    return .define bytes (← command)
  | none => fail "Bad function name"

def simple (inner : Inner) (command : Reading Command) : Reading Command := do
  let line := (← get).line
  loop (⟨[], [], []⟩ : Simple) fun s => do
    match ← next inner false false with
    | .word word =>
      match assignment? word, s.words with
      | some assignment, [] => return .inl { s with assignments := s.assignments ++ [assignment] }
      | _, _ => return .inl { s with words := s.words ++ [word] }
    | .redirection descriptor sign =>
      let redirection ← redirection inner descriptor sign
      return .inl { s with redirections := s.redirections ++ [redirection] }
    | t =>
      match t.isMark "(", s with
      | true, ⟨[], [name], []⟩ => return .inr (← function inner command name)
      | _, _ =>
        putBack t
        return .inr (.simple line s.assignments s.words s.redirections)

def choice (inner : Inner) : Reading Command := do
  let parts ← loop [] fun parts => do
    let test ← body inner
    expect inner "then" false true
    let parts := parts ++ [(test, ← body inner)]
    if ← acceptMark inner "elif" false true then return .inl parts
    return .inr parts
  let last ← if ← acceptMark inner "else" false true then body inner else pure .nothing
  expect inner "fi" false true
  return parts.foldr (fun (test, body) other => .choice test body other) last

def loopWords (inner : Inner) : Reading (List Word) :=
  loop [] fun words => do
    match ← next inner false false with
    | .word word => return .inl (words ++ [word])
    | .newline => return .inr words
    | t => if t.isMark ";" then return .inr words else unexpected t

def each (inner : Inner) (line : Nat) : Reading Command := do
  let .word word ← next inner false false | fail "Bad for loop variable"
  let name := (plain? word).getD []
  unless isName name do fail "Bad for loop variable"
  let words ←
    if ← acceptMark inner "in" true true then loopWords inner
    else do
      let _ ← acceptMark inner ";" false false
      pure [[.parameter true [0x40] .value []]]
  expect inner "do" true true
  let body ← body inner
  expect inner "done" false true
  return .each line name words body

def branch (inner : Inner) (first : Token) : Reading (List Word × Command) := do
  let first ← if first.isMark "(" then next inner false false else pure first
  let patterns ← loop (first, []) fun (t, patterns) => do
    let patterns ←
      match t with
      | .word word => pure (patterns ++ [word])
      | .mark text => pure (patterns ++ [[.text true (Text.encode text)]])
      | _ => pure (patterns ++ [[]])
    let t ← next inner false false
    if t.isMark "|" then return .inl (← next inner false false, patterns)
    unless t.isMark ")" do unexpectedInstead t "\")\""
    return .inr patterns
  return (patterns, (← inner.list .branch).getD .nothing)

def select (inner : Inner) (line : Nat) : Reading Command := do
  let t ← next inner false false
  let .word word := t | unexpectedInstead t "word"
  expect inner "in" true true
  let branches ← loop [] fun branches => do
    let t ← next inner true true
    if t.isMark "esac" then return .inr branches
    let branches := branches ++ [← branch inner t]
    let t ← next inner true true
    if t.isMark "esac" then return .inr branches
    unless t.isMark ";;" do unexpectedInstead t "\";;\""
    return .inl branches
  return .select line word branches

def repetition (inner : Inner) (inverted : Bool) : Reading Command := do
  let test ← body inner
  expect inner "do" false true
  let body ← body inner
  expect inner "done" false true
  return .loop inverted test body

def compound (inner : Inner) (line : Nat) (t : Token) : Reading Command := do
  let .mark text := t | unexpected t
  if text = "if" then choice inner
  else if text = "while" then repetition inner false
  else if text = "until" then repetition inner true
  else if text = "for" then each inner line
  else if text = "case" then select inner line
  else if text = "(" then
    let body ← body inner
    expect inner ")" false true
    return .subshell line body []
  else if text = "\x7b" then
    let body ← body inner
    expect inner "\x7d" false true
    return body
  else unexpected t

def command (inner : Inner) (lines : Bool) : (depth : Nat) → Reading Command
  | 0 => fail "too deep"
  | depth + 1 => do
    let line := (← get).line
    let t ← next inner lines true
    match t with
    | .word _ | .redirection .. =>
      putBack t
      simple inner (command inner true depth)
    | _ =>
      let made ← compound inner line t
      match made, ← redirections inner with
      | made, [] => return made
      | .subshell line body _, found => return .subshell line body found
      | made, found => return .redirected line made found

def depthLimit : Nat := 1000

def pipeline (inner : Inner) : Reading Command := do
  let negated ← acceptMark inner "!" true true
  let first ← command inner (!negated) depthLimit
  let commands ← loop [first] fun commands => do
    if ← acceptMark inner "|" false false then
      return .inl (commands ++ [← command inner true depthLimit])
    return .inr commands
  let made :=
    match commands with
    | [one] => one
    | _ => .pipeline commands
  return if negated then .negation made else made

def chain (inner : Inner) : Reading Command := do
  let first ← pipeline inner
  loop first fun before => do
    if ← acceptMark inner "&&" false false then return .inl (.both before (← pipeline inner))
    if ← acceptMark inner "||" false false then return .inl (.either before (← pipeline inner))
    return .inr before

def follow (before : Option Command) (c : Command) : Option Command :=
  some (before.elim c (.sequence · c))

def list (inner : Inner) (extent : Extent) : Reading (Option Command) :=
  loop none fun before => do
    let t ← next inner (extent != .line) true
    match t with
    | .newline =>
      documents inner
      return .inr (some (before.getD .nothing))
    | .finish =>
      documents inner
      putBack t
      return .inr before
    | _ =>
      putBack t
      if t.endsList ∧ (extent = .branch ∨ (extent = .body ∧ before.isSome)) then
        return .inr before
      let c ← chain inner
      let t ← next inner false false
      if t.isMark "&" then return .inl (follow before (.background c))
      if t.isMark ";" then return .inl (follow before c)
      match t with
      | .newline | .finish =>
        putBack t
        return .inl (follow before c)
      | _ =>
        if extent = .line then unexpected t
        putBack t
        return .inr (follow before c)

def inner : (depth : Nat) → Inner
  | 0 => ⟨fun _ => fail "too deep", fun _ => fail "too deep", fail "too deep",
      fun _ => fail "too deep"⟩
  | depth + 1 =>
    { word := fun place => readWord (inner depth) place
      list := fun extent => list (inner depth) extent
      substitution := do
        let announced := (← get).announced
        modify fun r => { r with announced := [] }
        let command := (← list (inner depth) .branch).getD .nothing
        expect (inner depth) ")" false true
        modify fun r => { r with announced := announced }
        return command
      script := fun text => do
        aside text 1 do
          return (← list (inner depth) .branch).getD .nothing }

def Reader.command (r : Reader) : EStateM.Result Fault Reader (Option Command) :=
  list (inner depthLimit) .line r

def Reader.start (text : Bytes) : Reader := ⟨text, 1, none, [], [], 0⟩

end BuildProbe.Shell
