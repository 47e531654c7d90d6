import BuildProbe.Shell.Arithmetic
import BuildProbe.Shell.Pattern
import BuildProbe.Shell.Session
/-!
Words as fields. Each piece is replaced by what it stands for; what came in without quotes is cut
at the separators, and a field that is a pattern becomes the names that it stands for, if there
are any. Nothing is left of a word without quotes that becomes empty.
-/
namespace BuildProbe.Shell

open Text (Bytes)
open Work

inductive Mark where
  | byte (byte : UInt8) (quoted cuttable : Bool)
  | quotes
  | gap
  deriving DecidableEq, Repr

namespace Mark

def ofValue (quoted : Bool) (value : Bytes) : List Mark :=
  (if quoted then [quotes] else []) ++ value.map (byte · quoted (!quoted))

def toBytes (marks : List Mark) : Bytes :=
  marks.filterMap fun
    | byte b .. => some b
    | quotes => none
    | gap => some 0x20

def toGlyphs (marks : List Mark) : List Glyph :=
  marks.filterMap fun
    | byte b quoted _ => some ⟨b, quoted⟩
    | quotes => none
    | gap => some ⟨0x20, false⟩

end Mark

structure Cutter where
  fields : List (List Glyph)
  begun : Option (List Glyph)
  blanks : Bool

namespace Cutter

def close (c : Cutter) (blanks : Bool) : Cutter :=
  match c.begun with
  | some field => ⟨field :: c.fields, none, blanks⟩
  | none => { c with blanks := c.blanks && blanks }

def keep (c : Cutter) (glyphs : List Glyph) : Cutter :=
  ⟨c.fields, some ((c.begun.getD []) ++ glyphs), false⟩

/-- A separator that is no blank ends a field, which is empty when none has begun, unless blanks
before it have ended one. -/
def feed (separators : Bytes) (c : Cutter) : Mark → Cutter
  | .quotes => c.keep []
  | .gap => c.close false
  | .byte b quoted cuttable =>
    if cuttable && separators.contains b then
      if among " \t\n" b then c.close true
      else if c.begun.isSome ∨ c.blanks then { c.close false with blanks := false }
      else ⟨[] :: c.fields, none, false⟩
    else c.keep [⟨b, quoted⟩]

def cut (separators : Bytes) (marks : List Mark) : List (List Glyph) :=
  let c := marks.foldl (feed separators) ⟨[], none, false⟩
  (c.close false).fields.reverse

end Cutter

/-! ## Parameters -/

inductive Value where
  | one (value : Option Bytes)
  | all (values : List Bytes)

def processNumber : Bytes := decimal 2

def parameter (name : Bytes) : Work Value := do
  let p ← process
  match name with
  | [0x40] | [0x2A] => return .all p.arguments
  | [0x23] => return .one (decimal p.arguments.length)
  | [0x3F] => return .one (decimal p.status)
  | [0x24] => return .one processNumber
  | [0x2D] => return .one ((Text.encode "ubaCEVvxsnmiIfe").filter p.options.contains)
  | [0x21] => return .one none
  | _ =>
    if name.all isDigit then
      match number name with
      | 0 => return .one p.name
      | n + 1 => return .one p.arguments[n]?
    else return .one (← value? name)

def separators : Work Bytes := do return (← value? (Text.encode "IFS")).getD (Text.encode " \t\n")

def Value.marks (quoted : Bool) (name : Bytes) : Value → Work (List Mark)
  | .one value => return value.elim (if quoted then [.quotes] else []) (Mark.ofValue quoted)
  | .all values => do
    if quoted ∧ name = [0x2A] then
      let between := (← separators).take 1
      return Mark.ofValue true (List.intercalate between values)
    return List.intercalate [.gap] (values.map (Mark.ofValue quoted))

def Value.isMissing (empty : Bool) : Value → Bool
  | .one none => true
  | .one (some value) => empty && value == []
  | .all [] => true
  | .all values => empty && values.all (· == [])

def Value.bytes : Value → Bytes
  | .one value => value.getD []
  | .all values => List.intercalate [0x20] values

/-! ## Expressions -/

def access (text : Bytes) : Arithmetic.Access Work where
  get name := do
    match ← value? name with
    | none => return 0
    | some value =>
      match Arithmetic.number? value with
      | some n => return n
      | none =>
        if value.all isSpace then return 0
        Work.fail (Text.encode "Illegal number: " ++ value) ""
  set name n := assign name (Text.encode (toString n))
  fail what :=
    Work.fail (Text.encode ("arithmetic expression: " ++ what ++ ": \"") ++ text) "\""

def computed (text : Bytes) : Work Bytes := do
  let access := access text
  let n ←
    match Arithmetic.parse text with
    | .ok (expression, whole) => do
      let n ← expression.value access
      if whole then pure n else access.fail "expecting EOF"
    | .error what => access.fail what
  return Text.encode (toString n)

/-! ## Pieces -/

def atHome (word : Word) : Work Word := do
  match word with
  | .text false (0x7E :: after) :: rest =>
    if after.head? = some 0x2F ∨ (after = [] ∧ rest.isEmpty) then
      match ← value? (Text.encode "HOME") with
      | some home => return .text true home :: .text false after :: rest
      | none => return word
    else return word
  | _ => return word

def trimmed (output : Bytes) : Bytes :=
  (output.filter (· ≠ 0)).reverse.dropWhile (· == newline) |>.reverse

mutual

def wordMarks (capture : Command → Work Bytes) (nested : Bool) : List Piece → Work (List Mark)
  | [] => return []
  | piece :: rest => do
    let first ← pieceMarks capture nested piece
    return first ++ (← wordMarks capture nested rest)

def pieceMarks (capture : Command → Work Bytes) (nested : Bool) : Piece → Work (List Mark)
  | .text quoted bytes =>
    return (if quoted then [.quotes] else [])
      ++ bytes.map (.byte · quoted (nested && !quoted))
  | .output quoted command => do
    return Mark.ofValue quoted (trimmed (← capture command))
  | .arithmetic quoted expression => do
    let text := Mark.toBytes (← wordMarks capture false expression)
    return Mark.ofValue quoted (← computed text)
  | .parameter quoted name use word => do
    let value ← parameter name
    if ← option 0x75 then
      match value, use with
      | .one none, .value | .one none, .length | .one none, .trim .. =>
        Work.fail name ": parameter not set"
      | _, _ => pure ()
    match use with
    | .unknown => Work.fail [] "Bad substitution"
    | .value => value.marks quoted name
    | .length =>
      match value with
      | .one value => return Mark.ofValue quoted (decimal (value.getD []).length)
      | .all values =>
        let n := if name = [0x40] then values.length else value.bytes.length
        return Mark.ofValue quoted (decimal n)
    | .default empty =>
      if value.isMissing empty then wordMarks capture (!quoted) word
      else value.marks quoted name
    | .replace empty =>
      if value.isMissing empty then return []
      wordMarks capture (!quoted) word
    | .assign empty =>
      if value.isMissing empty then
        let made := Mark.toBytes (← wordMarks capture false word)
        unless isName name do Work.fail name ": bad variable name"
        assign name made
        return Mark.ofValue quoted made
      value.marks quoted name
    | .demand empty =>
      if value.isMissing empty then
        let said := Mark.toBytes (← wordMarks capture false word)
        let said :=
          if word.isEmpty then
            Text.encode ("parameter not set" ++ if empty then " or null" else "")
          else said
        Work.fail (name ++ Text.encode ": " ++ said) ""
      value.marks quoted name
    | .trim atEnd longest => do
      let glyphs := Mark.toGlyphs (← wordMarks capture false word)
      let cut := Pattern.trim atEnd longest (Pattern.atoms glyphs)
      match value with
      | .one value => return Mark.ofValue quoted (cut (value.getD []))
      | .all values => (Value.all (values.map cut)).marks quoted name

end

/-! ## Names of files -/

def namesLike (t : Tree) (directory : Path) (glyphs : List Glyph) : List String :=
  match t.enter directory with
  | .error _ => []
  | .ok id =>
    let pattern := Pattern.atoms glyphs
    let dotted := glyphs.head?.any (·.byte = 0x2E)
    let names := ".." :: "." :: (t.names id).map (·.1)
    names.filter fun name =>
      let bytes := Text.encode name
      Pattern.accepts pattern bytes && (dotted || bytes.head? != some 0x2E)

def pathParts (glyphs : List Glyph) : List (List Glyph) :=
  glyphs.foldr (fun g parts =>
    if g.byte = 0x2F then [] :: parts
    else match parts with
      | [] => [[g]]
      | part :: rest => (g :: part) :: rest) [[]]

def glyphBytes (glyphs : List Glyph) : Bytes := glyphs.map (·.byte)

def pathsLike (t : Tree) (lead : String) : List (List Glyph) → List String
  | [] => []
  | [part] =>
    if Pattern.isPattern part then
      (namesLike t (.ofText (if lead = "" then "." else lead)) part).map (lead ++ ·)
    else
      let path := lead ++ Text.decode (glyphBytes part)
      match t.entry false (.ofText path) with
      | .ok _ => [path]
      | .error _ => []
  | part :: rest =>
    let names :=
      if Pattern.isPattern part then namesLike t (.ofText (if lead = "" then "." else lead)) part
      else [Text.decode (glyphBytes part)]
    names.flatMap fun name => pathsLike t (lead ++ name ++ "/") rest

def paths (t : Tree) (field : List Glyph) : List Bytes :=
  if Pattern.isPattern field then
    match (pathsLike t "" (pathParts field)).mergeSort fun a b => decide (a ≤ b) with
    | [] => [glyphBytes field]
    | found => found.map Text.encode
  else [glyphBytes field]

/-! ## Whole words -/

def fields (capture : Command → Work Bytes) (words : List Word) : Work (List Bytes) := do
  let mut found := []
  for word in words do
    let marks ← wordMarks capture false (← atHome word)
    let cut := Cutter.cut (← separators) marks
    let t ← tree
    let whole ← option 0x66
    found := found ++ if whole then cut.map glyphBytes else cut.flatMap (paths t)
  return found

def single (capture : Command → Work Bytes) (word : Word) : Work Bytes := do
  return Mark.toBytes (← wordMarks capture false (← atHome word))

def pattern (capture : Command → Work Bytes) (word : Word) : Work (List Pattern.Atom) := do
  return Pattern.atoms (Mark.toGlyphs (← wordMarks capture false (← atHome word)))

end BuildProbe.Shell
