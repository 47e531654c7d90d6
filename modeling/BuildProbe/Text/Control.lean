import BuildProbe.Text.Bytes
/-!
Control characters and control sequences in text, and what is left of a text without them. An
escape character starts a sequence, and the characters after it say how long it is. Line ends
and other feeds are shown even inside a sequence, and what follows such a feed is shown up to the
next control character, with which the sequence goes on.
-/
namespace BuildProbe.Text

inductive Progress where
  | opening
  | parameters
  | closing
  | garbled
  deriving DecidableEq, Repr

inductive Sequence where
  | ground
  | escape
  | designation
  | parametric (device : Bool) (part : Progress)
  | command
  | string
  deriving DecidableEq, Repr

def within (low high c : Char) : Bool := low ≤ c && c ≤ high

def endsString (c : Char) : Bool := (encode (String.singleton c)).contains 0x9C

def Progress.next (p : Progress) (c : Char) : Progress :=
  match p with
  | opening =>
    if within ' ' '/' c then closing else if within '0' '?' c then parameters else opening
  | parameters =>
    if within ' ' '/' c then closing else if within '<' '?' c then garbled else parameters
  | closing => if within '0' '?' c then garbled else closing
  | garbled => garbled

namespace Sequence

def behindEscape (c : Char) : Sequence :=
  if c = '[' then parametric false .opening
  else if c = 'P' then parametric true .opening
  else if c = ']' then command
  else if c = 'X' ∨ c = '^' ∨ c = '_' then string
  else if within ' ' '/' c then designation
  else if within '0' '~' c then ground
  else escape

def next (s : Sequence) (c : Char) : Sequence :=
  if c = '\x1b' then escape
  else if c = '\x18' ∨ c = '\x1a' then ground
  else match s with
    | ground => ground
    | escape => behindEscape c
    | designation => if within '0' '~' c then ground else designation
    | parametric device part =>
      if within '@' '~' c then if device then string else ground
      else if device ∧ part.next c = .garbled then string
      else parametric device (part.next c)
    | command => if c = '\x07' then ground else command
    | string => if endsString c then ground else string

end Sequence

def isFeed (c : Char) : Bool := c == '\t' || c == '\n' || c == '\x0c' || c == '\r'

def isPlain (c : Char) : Bool := isFeed c || (' ' ≤ c && c != '\x7f')

def Sequence.shows (s : Sequence) (c : Char) : Bool :=
  match s with
  | ground => isPlain c
  | escape | designation | parametric false _ => isFeed c
  | parametric true _ | command | string => false

/-- What is shown of a text; `free` behind a character that was shown. A character beyond ASCII
that is shown ends the sequence in which it stands. -/
def shownFrom (s : Sequence) (free : Bool) : List Char → List Char
  | [] => []
  | c :: cs =>
    if free && isPlain c || s.shows c then
      c :: shownFrom (if c < '\x80' then s else .ground) true cs
    else shownFrom (s.next c) false cs

def shown (s : String) : String := String.ofList (shownFrom .ground false s.toList)

end BuildProbe.Text
