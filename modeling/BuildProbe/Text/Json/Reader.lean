import BuildProbe.Text.Json
/-!
Reading JSON text. Numbers are integers; any other text of the format is read, with every
escape, and nothing else is.
-/
namespace BuildProbe.Json

def isBlank (c : Char) : Bool := c == ' ' || c == '\n' || c == '\t' || c == '\r'

def skipBlanks (cs : List Char) : List Char := cs.dropWhile isBlank

def hexValue? (c : Char) : Option Nat :=
  if '0' ≤ c ∧ c ≤ '9' then some (c.toNat - 48)
  else if 'a' ≤ c ∧ c ≤ 'f' then some (c.toNat - 87)
  else if 'A' ≤ c ∧ c ≤ 'F' then some (c.toNat - 55)
  else none

def unit? : List Char → Option (Nat × List Char)
  | a :: b :: c :: d :: rest => do
    let a ← hexValue? a
    let b ← hexValue? b
    let c ← hexValue? c
    let d ← hexValue? d
    some (((a * 16 + b) * 16 + c) * 16 + d, rest)
  | _ => none

def isLead (n : Nat) : Bool := 0xD800 ≤ n && n < 0xDC00

def isTrail (n : Nat) : Bool := 0xDC00 ≤ n && n < 0xE000

def escaped? : List Char → Option (Char × List Char)
  | '"' :: rest => some ('"', rest)
  | '\\' :: rest => some ('\\', rest)
  | '/' :: rest => some ('/', rest)
  | 'b' :: rest => some ('\x08', rest)
  | 't' :: rest => some ('\t', rest)
  | 'n' :: rest => some ('\n', rest)
  | 'f' :: rest => some ('\x0c', rest)
  | 'r' :: rest => some ('\r', rest)
  | 'u' :: rest => do
    let (lead, rest) ← unit? rest
    if isLead lead then
      match rest with
      | '\\' :: 'u' :: rest => do
        let (trail, rest) ← unit? rest
        if isTrail trail then
          some (Char.ofNat (0x10000 + (lead - 0xD800) * 0x400 + (trail - 0xDC00)), rest)
        else none
      | _ => none
    else if isTrail lead then none
    else some (Char.ofNat lead, rest)
  | _ => none

def body? : Nat → List Char → Option (List Char × List Char)
  | 0, _ => none
  | _ + 1, [] => none
  | fuel + 1, c :: rest =>
    if c = '"' then some ([], rest)
    else if c = '\\' then do
      let (c, rest) ← escaped? rest
      let (cs, rest) ← body? fuel rest
      some (c :: cs, rest)
    else if c.toNat < 0x20 then none
    else do
      let (cs, rest) ← body? fuel rest
      some (c :: cs, rest)

def string? : List Char → Option (String × List Char)
  | '"' :: rest => do
    let (cs, rest) ← body? (rest.length + 1) rest
    some (String.ofList cs, rest)
  | _ => none

def natural? (cs : List Char) : Option (Nat × List Char) :=
  let digits := cs.takeWhile Char.isDigit
  let rest := cs.dropWhile Char.isDigit
  match digits, rest with
  | [], _ => none
  | _, '.' :: _ => none
  | _, 'e' :: _ => none
  | _, 'E' :: _ => none
  | '0' :: _ :: _, _ => none
  | _, _ => some (digits.foldl (fun n c => 10 * n + (c.toNat - 48)) 0, rest)

def integer? : List Char → Option (Int × List Char)
  | '-' :: rest => (natural? rest).map fun (n, rest) => (-(n : Int), rest)
  | cs => (natural? cs).map fun (n, rest) => ((n : Int), rest)

def word? (cs : List Char) : Option (Json × List Char) :=
  match cs with
  | 'n' :: 'u' :: 'l' :: 'l' :: rest => some (.null, rest)
  | 't' :: 'r' :: 'u' :: 'e' :: rest => some (.bool true, rest)
  | 'f' :: 'a' :: 'l' :: 's' :: 'e' :: rest => some (.bool false, rest)
  | _ => none

mutual

def value? : Nat → List Char → Option (Json × List Char)
  | 0, _ => none
  | fuel + 1, cs =>
    match skipBlanks cs with
    | '"' :: rest => (string? ('"' :: rest)).map fun (s, rest) => (.str s, rest)
    | '[' :: rest =>
      match skipBlanks rest with
      | ']' :: rest => some (.arr [], rest)
      | rest => (items? fuel rest).map fun (xs, rest) => (.arr xs, rest)
    | '\x7b' :: rest =>
      match skipBlanks rest with
      | '\x7d' :: rest => some (.obj [], rest)
      | rest => (fields? fuel rest).map fun (fs, rest) => (.obj fs, rest)
    | rest => (word? rest).or ((integer? rest).map fun (i, rest) => (.int i, rest))

def items? : Nat → List Char → Option (List Json × List Char)
  | 0, _ => none
  | fuel + 1, cs => do
    let (x, rest) ← value? fuel cs
    match skipBlanks rest with
    | ']' :: rest => some ([x], rest)
    | ',' :: rest => do
      let (xs, rest) ← items? fuel rest
      some (x :: xs, rest)
    | _ => none

def fields? : Nat → List Char → Option (List (String × Json) × List Char)
  | 0, _ => none
  | fuel + 1, cs => do
    let (k, rest) ← string? (skipBlanks cs)
    match skipBlanks rest with
    | ':' :: rest => do
      let (v, rest) ← value? fuel rest
      match skipBlanks rest with
      | '\x7d' :: rest => some ([(k, v)], rest)
      | ',' :: rest => do
        let (fs, rest) ← fields? fuel rest
        some ((k, v) :: fs, rest)
      | _ => none
    | _ => none

end

def parse? (s : String) : Option Json :=
  match value? (2 * s.toList.length + 2) s.toList with
  | some (j, rest) => if skipBlanks rest = [] then some j else none
  | none => none

end BuildProbe.Json
