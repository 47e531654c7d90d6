/-!
Text cut into lines. A line ends at a line feed, and one carriage return directly before that
line feed belongs to the line's end. What follows the last line feed is a line of its own, kept
as it stands, unless it is empty. No other character starts or ends a line.
-/
namespace BuildProbe.Text

def chomp (l : List Char) : List Char :=
  if l.getLast? = some '\r' then l.dropLast else l

def unterminated (l : List Char) : List (List Char) :=
  if l = [] then [] else [l]

def lines (cs : List Char) : List (List Char) :=
  let pieces := cs.splitOn '\n'
  pieces.dropLast.map chomp ++ unterminated (pieces.getLastD [])

def lastLines (n : Nat) (cs : List Char) : List (List Char) :=
  let ls := lines cs
  ls.drop (ls.length - n)

def tail (s : String) (n : Nat) : String :=
  String.ofList (List.intercalate ['\n'] (lastLines n s.toList))

def firstLine? (cs : List Char) : Option (List Char × List Char) :=
  match cs with
  | [] => none
  | _ :: _ =>
    match cs.dropWhile (· != '\n') with
    | [] => some (cs, [])
    | _ :: rest => some (chomp (cs.takeWhile (· != '\n')), rest)

theorem firstLineShorter {cs l rest : List Char} (h : firstLine? cs = some (l, rest)) :
    rest.length < cs.length := by
  cases cs with
  | nil => simp [firstLine?] at h
  | cons c cs =>
    simp only [firstLine?] at h
    have size := (List.dropWhile_suffix (l := c :: cs) (· != '\n')).length_le
    split at h
    · simp only [Option.some.injEq, Prod.mk.injEq] at h
      simp [← h.2]
    · rename_i heq
      simp only [Option.some.injEq, Prod.mk.injEq] at h
      rw [heq, h.2] at size
      exact size

def after? : (mark text : List Char) → Option (List Char)
  | [], text => some text
  | _ :: _, [] => none
  | m :: mark, c :: text => if m = c then after? mark text else none

theorem afterSome {mark text rest : List Char} :
    after? mark text = some rest ↔ text = mark ++ rest := by
  induction mark generalizing text with
  | nil => simp [after?]
  | cons m mark ih =>
    cases text with
    | nil => simp [after?]
    | cons c text =>
      by_cases h : m = c
      · subst h; simp [after?, ih]
      · simp [after?, h, Ne.symm h]

end BuildProbe.Text
