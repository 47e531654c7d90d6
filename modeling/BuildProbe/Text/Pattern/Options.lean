import BuildProbe.Text.Classes
/-!
Options of a pattern, which it may switch on and off from place to place. There are no tables of
characters at hand, so what has to look something up in one is not permitted: letters of either
case and classes of letters, as long as characters are matched. When bytes are matched, nothing
is permitted that could match a part of a character.
-/
namespace BuildProbe.Text.Pattern

structure Options where
  folded : Bool
  unicode : Bool
  spaced : Bool
  deriving DecidableEq, Repr

structure Letter where
  char : Char
  ofByte : Bool
  deriving DecidableEq, Repr

namespace Options

def start : Options := ⟨false, true, false⟩

def names : List Char := "imsUuRx".toList

def isChange (cs : List Char) : Bool :=
  cs.all (fun c => c = '-' || names.contains c) && decide cs.Nodup && cs.getLast? ≠ some '-'

def change (o : Options) (cs : List Char) : Options :=
  let on := cs.takeWhile (· != '-')
  let changed (name : Char) (before : Bool) := on.contains name || (before && !cs.contains name)
  ⟨changed 'i' o.folded, changed 'u' o.unicode, changed 'x' o.spaced⟩

def behindSpace (comment : Bool) : List Char → List Char
  | [] => []
  | c :: cs =>
    if comment then behindSpace (c != '\n') cs
    else if isSpace c then behindSpace false cs
    else if c = '#' then behindSpace true cs
    else c :: cs

def skip (o : Options) (cs : List Char) : List Char :=
  if o.spaced then behindSpace false cs else cs

def ahead? (o : Options) (cs : List Char) : Option Char :=
  if o.spaced then
    let rest := match cs.dropWhile isSpace with
      | '#' :: comment => comment.dropWhile isSpace
      | rest => rest
    rest.head?.or cs.head?
  else cs.head?

def isAscii (c : Char) : Bool := c < '\x80'

/-- Outside of brackets a character beyond ASCII is as many bytes as it has. -/
def permits (o : Options) (l : Letter) : Bool :=
  if o.unicode then !o.folded else !l.ofByte || isAscii l.char

def permitsMember (o : Options) (l : Letter) : Bool :=
  if o.unicode then !o.folded else isAscii l.char

def permitsClass (o : Options) (negated : Bool) : Bool := !o.unicode && !negated

def permitsNamed (o : Options) (negated : Bool) : Bool :=
  if o.unicode then !o.folded else !negated

def permitsOthers (o : Options) : Bool := o.unicode

def permitsEdge (o : Options) : Bool := !o.unicode

end Options
end BuildProbe.Text.Pattern
