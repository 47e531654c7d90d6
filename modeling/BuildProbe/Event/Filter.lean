import BuildProbe.Environment
import BuildProbe.Event
import BuildProbe.Text.Lines
import BuildProbe.Text.Numeral
import BuildProbe.Text.Pattern
/-!
Which events a log shows. A filter is a list of rules, each with a ceiling for the events of the
components whose name it starts and, if it asks for a field, that have it; the closest of the
rules for an event decides. A rule may speak of spans, or of the value of a field of theirs.
There are no spans, so such a rule shows nothing. A filter without rules shows errors only.
-/
namespace BuildProbe

structure Rule where
  start : String
  field : Option String
  ofSpans : Bool
  ceiling : Nat
  deriving DecidableEq, Repr

abbrev Filter := List Rule

namespace Rule

def plain (start : String) (ceiling : Nat) : Rule := ⟨start, none, false, ceiling⟩

def applies (r : Rule) (e : Event) : Bool :=
  !r.ofSpans && r.start.toList.isPrefixOf e.component.target.toList
    && r.field.all (· ∈ e.fieldNames)

def fartherThan (a b : Rule) : Bool :=
  a.start.length < b.start.length || (a.start.length = b.start.length
    && match a.field, b.field with
      | none, some _ => true
      | some f, some g => f < g
      | _, none => false)

end Rule

namespace Filter

def silence : String := "OFF"

def upper (cs : List Char) : String := String.ofList (cs.map Char.toUpper)

def number? (cs : List Char) : Option Nat :=
  let digits := if cs.head? = some '+' then cs.tail else cs
  if digits ≠ [] ∧ digits.all Char.isDigit then
    some (digits.foldl (fun n c => 10 * n + (c.toNat - 48)) 0)
  else none

def rank? (cs : List Char) : Option Nat :=
  match number? cs with
  | some n => if n ≤ Level.trace.rank then some n else none
  | none =>
    if upper cs = silence then some 0
    else (Level.all.find? (·.name = upper cs)).map Level.rank

def startsName (c : Char) : Bool := Text.isWord c || c == '_' || c == '-' || c == ':'

inductive Defect where
  | malformed
  | torn
  deriving DecidableEq, Repr

def part (distance : Nat) (cs : List Char) : Except Defect (List Char × List Char) :=
  match distance, cs with
  | 0, cs => .ok ([], cs)
  | _ + 1, [] => .error .torn
  | n + 1, c :: cs => do
    if n + 1 < c.utf8Size then throw .torn
    let (before, behind) ← part (n + 1 - c.utf8Size) cs
    return (c :: before, behind)
termination_by structural cs

/-- The text of a rule. Its parts are found in it without the white space around it, and are
taken from it, at the same distances from its start, with that white space. -/
structure Source where
  text : List Char

namespace Source

def size (cs : List Char) : Nat := cs.foldl (fun n c => n + c.utf8Size) 0

def taken (s : Source) (before found : List Char) : Except Defect (List Char) := do
  let (_, rest) ← part (size before) s.text
  let (taken, _) ← part (size found) rest
  return taken

def rest (s : Source) (before : List Char) : Except Defect (List Char) := do
  return (← part (size before) s.text).2

def withLevel (s : Source) (r : Rule) (before : List Char) : Except Defect Rule := do
  match ← s.rest before with
  | [] => return r
  | cs =>
    match rank? cs with
    | some n => return { r with ceiling := n }
    | none => throw .malformed

def closed (s : Source) (r : Rule) (before : List Char) : List Char → Except Defect Rule
  | [] => .ok r
  | '=' :: _ => s.withLevel r (before ++ ['='])
  | _ => .error .malformed

def isValue (cs : List Char) : Bool :=
  let value := cs.takeWhile (· != '=')
  Text.Pattern.accepts value || (value.head? = some '+' && Text.isNumber value.tail)

def opened (s : Source) (start before inner : List Char) : Except Defect Rule := do
  let name := inner.takeWhile fun c => c != ']' && c != '\x7b'
  let rule : Rule := ⟨String.ofList start, none, true, Level.trace.rank⟩
  match inner.drop name.length with
  | [] => throw .malformed
  | mark :: inner =>
    let span ← s.taken before name
    let before := before ++ name ++ [mark]
    if mark = ']' then s.closed rule before inner
    else
      let field := inner.takeWhile (· != '\x7d')
      match inner.drop field.length with
      | [] => throw .malformed
      | brace :: rest =>
        let text ← s.taken before field
        let asked := String.ofList (text.takeWhile (· != '='))
        let value := text.dropWhile (· != '=')
        match rest with
        | ']' :: rest =>
          if text = [] ∨ !isValue value.tail then throw .malformed
          s.closed { rule with field := some asked, ofSpans := span ≠ [] || value ≠ [] }
            (before ++ field ++ [brace, ']']) rest
        | _ => throw .malformed

end Source

def rule (cs : List Char) : Except Defect Rule := do
  let source : Source := ⟨cs⟩
  match Text.trim cs with
  | [] => throw .malformed
  | '[' :: inner => source.opened [] ['['] inner
  | c :: more =>
    let name := (c :: more).takeWhile fun c => c != '=' && c != '['
    if !startsName c then throw .malformed
    match (c :: more).drop name.length with
    | [] =>
      match rank? cs with
      | some n => return .plain "" n
      | none => return .plain (String.ofList cs) Level.trace.rank
    | mark :: inner =>
      let start ← source.taken [] name
      if mark = '=' then
        source.withLevel (.plain (String.ofList start) Level.trace.rank) (name ++ [mark])
      else source.opened start (name ++ [mark]) inner

def parse (s : String) : Except Defect Filter := do
  match ← ((List.splitOn ',' s.toList).filter (· ≠ [])).mapM rule with
  | [] => return [.plain "" Level.error.rank]
  | rules => return rules

def closer (best : Option Rule) (r : Rule) : Option Rule :=
  match best with
  | none => some r
  | some b => if r.fartherThan b then some b else some r

def decisive? (f : Filter) (e : Event) : Option Rule := (f.filter (·.applies e)).foldl closer none

def shows (f : Filter) (e : Event) : Bool :=
  match f.decisive? e with
  | some r => e.level.rank ≤ r.ceiling
  | none => false

def variableName : String := "RUST_LOG"

def standard : Filter := [.plain commandName Level.info.rank]

/-- The filter that the environment asks for, or the standard one when that is malformed. There
is no filter at all when a rule is torn. -/
def ofEnvironment? (environment : Environment) : Option Filter :=
  match environment.seen? variableName with
  | none => some standard
  | some s =>
    match parse s with
    | .ok filter => some filter
    | .error .malformed => some standard
    | .error .torn => none

end Filter
end BuildProbe
