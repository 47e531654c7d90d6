/-!
Text in quotes, as a log or a failure shows it: quotes, backslashes and line ends are escaped, and
other control characters are given by number.
-/
namespace BuildProbe.Text

def quotedChar (c : Char) : List Char :=
  if c = '"' ∨ c = '\\' then ['\\', c]
  else if c = '\n' then ['\\', 'n']
  else if c = '\r' then ['\\', 'r']
  else if c = '\t' then ['\\', 't']
  else if c = '\x00' then ['\\', '0']
  else if c < ' ' ∨ ('\x7f' ≤ c ∧ c < '\u00a0') then
    ['\\', 'u', '\x7b'] ++ Nat.toDigits 16 c.toNat ++ ['\x7d']
  else [c]

def quoted (s : String) : String :=
  String.ofList ('"' :: (s.toList.flatMap quotedChar ++ ['"']))

end BuildProbe.Text
