/-!
JSON values and their indented text: two blanks a level, one item a line, a blank after a colon.
In strings only the quotation mark, the backslash and control characters are escaped.
-/
namespace BuildProbe

inductive Json where
  | null
  | bool (b : Bool)
  | int (i : Int)
  | str (s : String)
  | arr (items : List Json)
  | obj (fields : List (String × Json))
  deriving Repr

namespace Json

def hexDigit (n : Nat) : Char :=
  if n < 10 then Char.ofNat (48 + n) else Char.ofNat (87 + n)

def escape (c : Char) : List Char :=
  if c = '"' then ['\\', '"']
  else if c = '\\' then ['\\', '\\']
  else if c = '\x08' then ['\\', 'b']
  else if c = '\t' then ['\\', 't']
  else if c = '\n' then ['\\', 'n']
  else if c = '\x0c' then ['\\', 'f']
  else if c = '\r' then ['\\', 'r']
  else if c.toNat < 0x20 then
    ['\\', 'u', '0', '0', hexDigit (c.toNat / 16), hexDigit (c.toNat % 16)]
  else [c]

def quote (s : List Char) : List Char := '"' :: (s.flatMap escape ++ ['"'])

def indent (level : Nat) : List Char := '\n' :: List.replicate (2 * level) ' '

mutual

def pretty (level : Nat) : Json → List Char
  | .null => "null".toList
  | .bool true => "true".toList
  | .bool false => "false".toList
  | .int i => (toString i).toList
  | .str s => quote s.toList
  | .arr [] => ['[', ']']
  | .arr (x :: xs) =>
    '[' :: (indent (level + 1) ++ pretty (level + 1) x ++ prettyItems (level + 1) xs
      ++ indent level ++ [']'])
  | .obj [] => ['\x7b', '\x7d']
  | .obj ((k, v) :: fs) =>
    '\x7b' :: (indent (level + 1) ++ quote k.toList ++ [':', ' '] ++ pretty (level + 1) v
      ++ prettyFields (level + 1) fs ++ indent level ++ ['\x7d'])

def prettyItems (level : Nat) : List Json → List Char
  | [] => []
  | x :: xs => ',' :: (indent level ++ pretty level x ++ prettyItems level xs)

def prettyFields (level : Nat) : List (String × Json) → List Char
  | [] => []
  | (k, v) :: fs =>
    ',' :: (indent level ++ quote k.toList ++ [':', ' '] ++ pretty level v
      ++ prettyFields level fs)

end

def render (j : Json) : String := String.ofList (pretty 0 j)

end Json
end BuildProbe
