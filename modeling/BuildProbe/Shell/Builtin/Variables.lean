import BuildProbe.Shell.Builtin.Basic
/-!
Commands about variables, arguments and options.
-/
namespace BuildProbe.Shell.Builtin

open Text (Bytes)
open Work

def shift (words : List Bytes) : Work Nat := do
  let n ← words.head?.elim (pure 1) count
  let p ← process
  if p.arguments.length < n then Work.fail [] "can't shift that many"
  update fun p => { p with arguments := p.arguments.drop n }
  return 0

def mark (f : Variable → Variable) (words : List Bytes) : Work Nat := do
  for word in (← options "p" words).2 do
    let (name, value?) := nameAndValue word
    unless isName name do Work.fail name ": bad variable name"
    if let some value := value? then assign name value
    change name f
  return 0

def unset (words : List Bytes) : Work Nat := do
  let (options, words) ← options "fv" words
  if options.contains 0x66 then
    update fun p => { p with functions := p.functions.filter (!words.contains ·.1) }
    return 0
  for word in words do
    let name := (nameAndValue word).1
    unless isName name do Work.fail name ": bad variable name"
    if (← found? name).any (·.fixed) then Work.fail name ": is read only"
    restore name none
  return 0

def optionNames : List (String × Char) :=
  [("errexit", 'e'), ("noglob", 'f'), ("noexec", 'n'), ("nounset", 'u'), ("xtrace", 'x'),
    ("verbose", 'v'), ("allexport", 'a'), ("noclobber", 'C'), ("monitor", 'm')]

def optionLetters : String := "efInuxvaCmbisEVIq"

def turn (on : Bool) (letter : UInt8) : Work Unit :=
  update fun p =>
    { p with
      options := (if on then [letter] else []) ++ p.options.filter (· ≠ letter) }

def turnAll (on : Bool) : (letters : Bytes) → List Bytes → Work (List Bytes)
  | [], words => return words
  | letter :: letters, words => do
    if letter = 0x6F then
      match words with
      | [] => turnAll on letters []
      | name :: words =>
        match optionNames.find? fun (own, _) => Text.encode own = name with
        | some (_, named) => turn on (.ofNat named.toNat)
        | none => Work.fail (Text.encode "Illegal option -o " ++ name) ""
        turnAll on letters words
    else
      unless among optionLetters letter do Work.fail (Text.encode "Illegal option -" ++ [letter]) ""
      turn on letter
      turnAll on letters words

def set (words : List Bytes) : (limit : Nat) → Work Nat
  | 0 => return 0
  | limit + 1 => do
    let take (words : List Bytes) : Work Nat := do
      update fun p => { p with arguments := words }
      return 0
    match words with
    | [] => return 0
    | [0x2D, 0x2D] :: words => take words
    | [0x2D] :: words =>
      turn false 0x78
      turn false 0x76
      if words = [] then return 0 else take words
    | (0x2D :: letter :: letters) :: words =>
      set (← turnAll true (letter :: letters) words) limit
    | (0x2B :: letter :: letters) :: words =>
      set (← turnAll false (letter :: letters) words) limit
    | words => take words

def readLine (raw : Bool) : (limit : Nat) → Bytes → List Glyph × Bytes × Bool
  | 0, text => ([], text, false)
  | _, [] => ([], [], false)
  | limit + 1, b :: rest =>
    if b = newline then ([], rest, true)
    else if b = 0x5C ∧ !raw then
      match rest with
      | [] => ([], [], false)
      | c :: rest =>
        let (line, after, ended) := readLine raw limit rest
        (if c = newline then line else ⟨c, true⟩ :: line, after, ended)
    else
      let (line, after, ended) := readLine raw limit rest
      (⟨b, false⟩ :: line, after, ended)

def lineFields (separators : Bytes) : (fields : Nat) → List Glyph → List Bytes
  | 0, _ => []
  | fields + 1, line =>
    let isBlankSeparator (g : Glyph) : Bool :=
      !g.quoted && separators.contains g.byte && among " \t\n" g.byte
    let isSeparator (g : Glyph) : Bool := !g.quoted && separators.contains g.byte
    let line := line.dropWhile isBlankSeparator
    if fields = 0 then
      let kept := (line.reverse.dropWhile isBlankSeparator).reverse
      let inner := kept.dropLast
      let single := kept.getLast?.any isSeparator && !inner.any isSeparator
      [(if single then (inner.reverse.dropWhile isBlankSeparator).reverse else kept).map (·.byte)]
    else
      let field := line.takeWhile (!isSeparator ·)
      let rest := (line.drop field.length).dropWhile isBlankSeparator
      let rest :=
        match rest with
        | g :: after => if isSeparator g then after else rest
        | [] => []
      field.map (·.byte) :: lineFields separators fields rest

def read (words : List Bytes) : Work Nat := do
  let (options, names) ← options "r" words
  let raw := options.contains 0x72
  if names = [] then return ← refuse [] "arg count"
  let text ← input 0
  let (line, rest, ended) := readLine raw text.length text
  let line := line.filter (·.byte ≠ 0)
  leave 0 rest
  let separators := (← value? (Text.encode "IFS")).getD (Text.encode " \t\n")
  for (name, value) in names.zip (lineFields separators names.length line) do
    unless isName name do Work.fail name ": bad variable name"
    assign name value
  return if ended then 0 else 1

def makeLocal (words : List Bytes) : Work Nat := do
  if (← process).hidden.isNone then Work.fail [] "not in a function"
  for word in words do
    let (name, value?) := nameAndValue word
    unless isName name do Work.fail name ": bad variable name"
    let before ← found? name
    update fun p => { p with hidden := p.hidden.map ((name, before) :: ·) }
    if let some value := value? then assign name value
  return 0

end BuildProbe.Shell.Builtin
