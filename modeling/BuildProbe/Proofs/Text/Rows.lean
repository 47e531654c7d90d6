import BuildProbe.Text.Lines

/-!
Rows of a text: its lines as they stand in it, with the line feed that ends them. All rows but
perhaps the last one have one, and the rows in a row are the text. A line is what is read of a
row: a carriage return directly before the line feed goes with it.
-/
namespace BuildProbe.Text

structure Row where
  text : List Char
  ended : Bool
  deriving DecidableEq, Repr

namespace Row

def whole (r : Row) : List Char := if r.ended then r.text ++ ['\n'] else r.text

def read (r : Row) : List Char := if r.ended then chomp r.text else r.text

end Row

def rows (cs : List Char) : List Row :=
  let pieces := cs.splitOn '\n'
  pieces.dropLast.map (⟨·, true⟩) ++ (unterminated (pieces.getLastD [])).map (⟨·, false⟩)

theorem splitMarks (d : Char) (n : Nat) (rest : List Char) :
    (List.replicate n d ++ rest).splitOn d = List.replicate n [] ++ rest.splitOn d := by
  induction n with
  | zero => rfl
  | succ n ih =>
    rw [List.replicate_succ, List.cons_append, List.splitOn_cons_eq_if_modifyHead,
      if_pos (beq_self_eq_true d), ih]
    rfl

theorem splitLength (d : Char) (cs : List Char) : (cs.splitOn d).length = cs.count d + 1 := by
  induction cs with
  | nil => rfl
  | cons c cs ih =>
    rw [List.splitOn_cons_eq_if_modifyHead, List.count_cons]
    split <;> simp [ih]

theorem rowsCons {l : List Char} (plain : '\n' ∉ l) (rest : List Char) :
    rows (l ++ '\n' :: rest) = ⟨l, true⟩ :: rows rest := by
  obtain ⟨p, ps, tail⟩ := List.exists_cons_of_ne_nil (List.splitOn_ne_nil '\n' rest)
  simp [rows, List.splitOn_append_cons_self_of_not_mem plain, tail]

theorem rowsPlain {l : List Char} (plain : '\n' ∉ l) :
    rows l = (unterminated l).map (⟨·, false⟩) := by
  simp [rows, List.splitOn_eq_singleton plain]

theorem pieceInduction {α : Type} [DecidableEq α] (mark : α) {motive : List α → Prop}
    (last : ∀ l, mark ∉ l → motive l)
    (piece : ∀ l rest, mark ∉ l → motive rest → motive (l ++ mark :: rest)) (l : List α) :
    motive l := by
  by_cases marked : mark ∈ l
  · obtain ⟨front, rest, same, plain⟩ := List.eq_append_cons_of_mem marked
    rw [same]
    exact piece front rest plain (pieceInduction mark last piece rest)
  · exact last l marked
termination_by l.length
decreasing_by rw [same, List.length_append, List.length_cons]; omega

theorem rowInduction {motive : List Char → Prop} (last : ∀ l, '\n' ∉ l → motive l)
    (row : ∀ l rest, '\n' ∉ l → motive rest → motive (l ++ '\n' :: rest)) (cs : List Char) :
    motive cs :=
  pieceInduction '\n' last row cs

theorem linesRows (cs : List Char) : lines cs = (rows cs).map Row.read := by
  simp only [lines, rows, List.map_append, List.map_map]
  congr 1
  exact (List.map_id _).symm

theorem linesCons {l : List Char} (plain : '\n' ∉ l) (rest : List Char) :
    lines (l ++ '\n' :: rest) = chomp l :: lines rest := by
  rw [linesRows, rowsCons plain, List.map_cons, ← linesRows]
  rfl

theorem linesPlain {l : List Char} (plain : '\n' ∉ l) : lines l = unterminated l := by
  rw [linesRows, rowsPlain plain, List.map_map]
  exact List.map_id _

theorem rowText {cs : List Char} {r : Row} (member : r ∈ rows cs) : '\n' ∉ r.text := by
  induction cs using rowInduction with
  | last l plain =>
    rw [rowsPlain plain] at member
    unfold unterminated at member
    split at member
    · cases member
    · cases List.mem_singleton.mp member
      exact plain
  | row l rest plain ih =>
    rw [rowsCons plain] at member
    rcases List.mem_cons.mp member with rfl | later
    · exact plain
    · exact ih later

theorem readPlain {r : Row} {d : Char} (plain : d ∉ r.text) : d ∉ r.read := by
  unfold Row.read chomp
  split
  · split
    · exact fun inside => plain (List.dropLast_subset _ inside)
    · exact plain
  · exact plain

theorem lineText {cs l : List Char} (member : l ∈ lines cs) : '\n' ∉ l := by
  rw [linesRows] at member
  obtain ⟨r, row, rfl⟩ := List.mem_map.mp member
  exact readPlain (rowText row)

theorem chompReturn (l : List Char) : chomp (l ++ ['\r']) = l := by
  simp [chomp]

theorem chompOther {l : List Char} (last : l.getLast? ≠ some '\r') : chomp l = l :=
  if_neg last

theorem chompLast (l : List Char) : (chomp l).getLast? = some '\r' ↔ ['\r', '\r'] <:+ l := by
  constructor
  · intro left
    by_cases last : l.getLast? = some '\r'
    · obtain ⟨front, rfl⟩ := List.getLast?_eq_some_iff.mp last
      rw [chompReturn] at left
      obtain ⟨front, rfl⟩ := List.getLast?_eq_some_iff.mp left
      exact ⟨front, by simp⟩
    · rw [chompOther last] at left
      exact absurd left last
  · rintro ⟨front, rfl⟩
    rw [show front ++ ['\r', '\r'] = (front ++ ['\r']) ++ ['\r'] by simp, chompReturn]
    simp

end BuildProbe.Text
