import BuildProbe.Shell.Arithmetic
/-!
What the shell's own commands display: words with blanks between them, and words in a format. In
both a backslash begins an escape. A format is used again as long as it takes words and there are
more of them.
-/
namespace BuildProbe.Shell.Display

open Text (Bytes)

def isOctal (b : UInt8) : Bool := 0x30 ≤ b && b ≤ 0x37

def octal (text : Bytes) : UInt8 × Bytes :=
  let digits := (text.take 3).takeWhile isOctal
  (.ofNat (digits.foldl (fun n b => 8 * n + (b.toNat - 0x30)) 0), text.drop digits.length)

def escapes : List (Char × UInt8) :=
  [('\\', 0x5C), ('a', 7), ('b', 8), ('e', 27), ('f', 12), ('n', 10), ('r', 13), ('t', 9),
    ('v', 11)]

def escape : Bytes → UInt8 × Bytes
  | [] => (0x5C, [])
  | b :: rest =>
    if isOctal b then octal (b :: rest)
    else
      match escapes.find? fun (letter, _) => letter.toNat = b.toNat with
      | some (_, byte) => (byte, rest)
      | none => (0x5C, b :: rest)

def escapedWithin : (limit : Nat) → Bytes → Bytes × Bool
  | 0, _ | _, [] => ([], false)
  | limit + 1, b :: rest =>
    let after (byte : UInt8) (rest : Bytes) : Bytes × Bool :=
      let (text, ended) := escapedWithin limit rest
      (byte :: text, ended)
    if b ≠ 0x5C then after b rest
    else
      match rest with
      | 0x63 :: _ => ([], true)
      | 0x30 :: digits => after (octal digits).1 (octal digits).2
      | _ => after (escape rest).1 (escape rest).2

def escaped (text : Bytes) : Bytes × Bool := escapedWithin text.length text

def echo (words : List Bytes) : Bytes :=
  let (words, ended) : List Bytes × Bytes :=
    match words with
    | first :: rest => if first = Text.encode "-n" then (rest, []) else (words, [newline])
    | [] => ([], [newline])
  let rec lineOf : List Bytes → Bytes
    | [] => ended
    | word :: rest =>
      match escaped word with
      | (text, true) => text
      | (text, false) => text ++ if rest.isEmpty then ended else 0x20 :: lineOf rest
  lineOf words

/-! ## Formats -/

structure Directive where
  flags : Bytes
  width : Nat
  precision : Option Nat
  conversion : UInt8
  deriving DecidableEq, Repr

namespace Directive

def has (d : Directive) (flag : Char) : Bool := d.flags.any (·.toNat = flag.toNat)

def padded (d : Directive) (text : Bytes) : Bytes :=
  let blanks := List.replicate (d.width - text.length) 0x20
  if d.has '-' then text ++ blanks else blanks ++ text

def numeral (d : Directive) (sign : Bytes) (digits : Bytes) : Bytes :=
  match d.precision with
  | some least =>
    let digits := if least = 0 ∧ digits = [0x30] then [] else digits
    d.padded (sign ++ List.replicate (least - digits.length) 0x30 ++ digits)
  | none =>
    if d.has '0' ∧ !d.has '-' then
      sign ++ List.replicate (d.width - sign.length - digits.length) 0x30 ++ digits
    else d.padded (sign ++ digits)

def inBase (base n : Nat) : Bytes := Text.encode (String.ofList (Nat.toDigits base n))

def signed (d : Directive) (n : Int) : Bytes :=
  let sign : Bytes :=
    if n < 0 then [0x2D] else if d.has '+' then [0x2B] else if d.has ' ' then [0x20] else []
  d.numeral sign (inBase 10 n.natAbs)

def unsigned (d : Directive) (n : Int) : Bytes :=
  let n := (n % 0x10000000000000000).toNat
  let marked := d.has '#'
  if d.conversion = 0x6F then
    d.numeral [] ((if marked ∧ n ≠ 0 then [0x30] else []) ++ inBase 8 n)
  else if d.conversion = 0x78 then
    d.numeral (if marked ∧ n ≠ 0 then [0x30, 0x78] else []) (inBase 16 n)
  else if d.conversion = 0x58 then
    d.numeral (if marked ∧ n ≠ 0 then [0x30, 0x58] else [])
      ((inBase 16 n).map fun b => if 0x61 ≤ b then b - 0x20 else b)
  else d.numeral [] (inBase 10 n)

end Directive

structure Progress where
  shown : Bytes
  words : List Bytes
  complaints : List Bytes
  ended : Bool
  status : Nat

namespace Progress

def word (p : Progress) : Bytes × Progress := (p.words.headD [], { p with words := p.words.tail })

def shows (p : Progress) (text : Bytes) : Progress := { p with shown := p.shown ++ text }

def complains (p : Progress) (what : Bytes) (status : Nat) : Progress :=
  { p with complaints := p.complaints ++ [what], status := status }

def number (p : Progress) : Int × Progress :=
  match p.words with
  | [] => (0, p)
  | text :: words =>
    let p := { p with words := words }
    match text with
    | 0x22 :: rest | 0x27 :: rest => (rest.headD 0).toNat |> fun n => (n, p)
    | _ =>
      let (negative, digits) : Bool × Bytes :=
        match text.dropWhile isBlank with
        | 0x2D :: digits => (true, digits)
        | 0x2B :: digits => (false, digits)
        | digits => (false, digits)
      let (n, rest) := Arithmetic.readNumber digits
      let n := if negative then -n else n
      if !digits.head?.any isDigit then
        (0, if text = [] then p else p.complains (text ++ Text.encode ": expected numeric value") 1)
      else if rest.isEmpty then (n, p)
      else (n, p.complains (text ++ Text.encode ": not completely converted") 1)

def follow (p : Progress) (start : Bytes) (d : Directive) : Progress :=
  let cut (text : Bytes) : Bytes := d.precision.elim text (text.take ·)
  let is (conversion : Char) : Bool := d.conversion.toNat == conversion.toNat
  if is 's' then
    let (text, p) := p.word
    p.shows (d.padded (cut text))
  else if is 'b' then
    let (text, p) := p.word
    let (text, ended) := escaped text
    { p.shows (d.padded (cut text)) with ended := ended }
  else if is 'c' then
    let (text, p) := p.word
    p.shows (d.padded [text.headD 0])
  else if is 'd' ∨ is 'i' then
    let (n, p) := p.number
    p.shows (d.signed n)
  else if is 'o' ∨ is 'u' ∨ is 'x' ∨ is 'X' then
    let (n, p) := p.number
    p.shows (d.unsigned n)
  else { p.complains (start ++ Text.encode ": invalid directive") 2 with ended := true }

def measure (p : Progress) (text : Bytes) : Nat × Bytes × Progress :=
  match text with
  | 0x2A :: rest =>
    let (n, p) := p.number
    (n.toNat, rest, p)
  | _ => (Shell.number (text.takeWhile isDigit), text.dropWhile isDigit, p)

def format (p : Progress) : (limit : Nat) → Bytes → Progress
  | 0, _ | _, [] => p
  | limit + 1, b :: rest =>
    if p.ended then p
    else if b = 0x5C then
      let (byte, rest) := escape rest
      (p.shows [byte]).format limit rest
    else if b ≠ 0x25 then (p.shows [b]).format limit rest
    else if rest.head? = some 0x25 then (p.shows [b]).format limit rest.tail
    else
      let flags := rest.takeWhile (among "#-+ 0")
      let (width, after, p) := p.measure (rest.drop flags.length)
      let (precision, after, p) : Option Nat × Bytes × Progress :=
        match after with
        | 0x2E :: after =>
          let (n, after, p) := p.measure after
          (some n, after, p)
        | _ => (none, after, p)
      match after with
      | [] => { p.complains (Text.encode "missing format character") 2 with ended := true }
      | conversion :: after =>
        let start := b :: rest.take (rest.length - after.length)
        (p.follow start ⟨flags, width, precision, conversion⟩).format limit after

def formats (text : Bytes) (p : Progress) : (limit : Nat) → Progress
  | 0 => p
  | limit + 1 =>
    let q := p.format text.length text
    if q.ended ∨ q.words.isEmpty ∨ q.words.length = p.words.length then q
    else q.formats text limit

end Progress

def printf (text : Bytes) (words : List Bytes) : Progress :=
  Progress.formats text ⟨[], words, [], false, 0⟩ (words.length + 1)

end BuildProbe.Shell.Display
