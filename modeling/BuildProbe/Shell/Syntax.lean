import BuildProbe.Text.Bytes
/-!
Commands of the shell as data. A word is made of pieces: text, and what is put in place of a
parameter, of a command or of an expression. A piece between double quotes is quoted, and so is
text whose characters have lost their meaning in any other way.
-/
namespace BuildProbe.Shell

open Text (Bytes)

inductive Use where
  | value
  | length
  | default (empty : Bool)
  | assign (empty : Bool)
  | demand (empty : Bool)
  | replace (empty : Bool)
  | trim (atEnd longest : Bool)
  | unknown
  deriving DecidableEq, Repr

inductive Opening where
  | read
  | write
  | overwrite
  | append
  | update
  | duplicate
  | document (number : Nat)
  deriving DecidableEq, Repr

mutual

inductive Piece where
  | text (quoted : Bool) (bytes : Bytes)
  | parameter (quoted : Bool) (name : Bytes) (use : Use) (word : List Piece)
  | output (quoted : Bool) (command : Command)
  | arithmetic (quoted : Bool) (expression : List Piece)

inductive Redirection where
  | on (descriptor : Nat) (opening : Opening) (word : List Piece)

inductive Command where
  | nothing
  | simple (line : Nat) (assignments : List (Bytes × List Piece)) (words : List (List Piece))
      (redirections : List Redirection)
  | pipeline (commands : List Command)
  | background (command : Command)
  | negation (command : Command)
  | both (first second : Command)
  | either (first second : Command)
  | sequence (first second : Command)
  | subshell (line : Nat) (body : Command) (redirections : List Redirection)
  | redirected (line : Nat) (body : Command) (redirections : List Redirection)
  | choice (test body other : Command)
  | loop (inverted : Bool) (test body : Command)
  | each (line : Nat) (name : Bytes) (words : List (List Piece)) (body : Command)
  | select (line : Nat) (word : List Piece) (branches : List (List (List Piece) × Command))
  | define (name : Bytes) (body : Command)

end

abbrev Word := List Piece

structure Document where
  number : Nat
  word : Word

structure Glyph where
  byte : UInt8
  quoted : Bool
  deriving DecidableEq, Repr

/-! ## Bytes that matter -/

def newline : UInt8 := 0x0A

def isBlank (b : UInt8) : Bool := b == 0x20 || b == 0x09

def isSpace (b : UInt8) : Bool := b == 0x20 || (0x09 ≤ b && b ≤ 0x0D)

def isDigit (b : UInt8) : Bool := 0x30 ≤ b && b ≤ 0x39

def startsName (b : UInt8) : Bool :=
  (0x41 ≤ b && b ≤ 0x5A) || (0x61 ≤ b && b ≤ 0x7A) || b == 0x5F

def inName (b : UInt8) : Bool := startsName b || isDigit b

def isName (bytes : Bytes) : Bool := bytes.head?.any startsName && bytes.all inName

def among (characters : String) (b : UInt8) : Bool := (Text.encode characters).contains b

def isMark (b : UInt8) : Bool := among "@*#?$!-" b

def endsWord (b : UInt8) : Bool := among " \t\n<>();&|" b

def number (digits : Bytes) : Nat := digits.foldl (fun n b => 10 * n + (b.toNat - 0x30)) 0

def decimal (n : Nat) : Bytes := Text.encode (toString n)

def plain? : Word → Option Bytes
  | [.text false bytes] => some bytes
  | _ => none

def isQuoted : Piece → Bool
  | .text quoted _ | .parameter quoted .. | .output quoted _ | .arithmetic quoted _ => quoted

def assignment? : Word → Option (Bytes × Word)
  | .text false bytes :: rest =>
    let name := bytes.takeWhile (· != 0x3D)
    let value := bytes.drop (name.length + 1)
    if name.length < bytes.length ∧ isName name then
      some (name, if value = [] then rest else .text false value :: rest)
    else none
  | _ => none

end BuildProbe.Shell
