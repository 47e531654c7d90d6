import BuildProbe.Proofs.Text.Rows

/-!
The tail of a text: its last lines, joined by line feeds. Cutting the tail at its line feeds gives
these lines back, blank ones and carriage returns included. A text that ends with a line feed can
stand in front without a change to the tail, once there are lines enough behind it.
-/
namespace BuildProbe.Text

def linesFrom? (start : Nat) (ls : List (List Char)) : Option (List (List Char)) :=
  if start ≤ ls.length then some (ls.drop start) else none

theorem linesBehind (front rest : List Char) :
    lines (front ++ '\n' :: rest) = lines (front ++ ['\n']) ++ lines rest := by
  induction front using rowInduction with
  | last l plain =>
    rw [linesCons plain, linesCons plain]
    rfl
  | row l more plain ih =>
    simp only [List.append_assoc, List.cons_append, linesCons plain, ih]

section

variable {n : Nat} {cs : List Char}

theorem linesFromLast (n : Nat) (cs : List Char) :
    linesFrom? ((lines cs).length - n) (lines cs) = some (lastLines n cs) :=
  if_pos (Nat.sub_le _ _)

theorem lastLinesDrop (n : Nat) (cs : List Char) :
    lastLines n cs = (lines cs).drop ((lines cs).length - min n (lines cs).length) := by
  rw [lastLines]
  congr 1
  omega

theorem lastLinesLength (n : Nat) (cs : List Char) :
    (lastLines n cs).length = min n (lines cs).length := by
  rw [lastLines, List.length_drop]
  omega

theorem lastLinesAll (few : (lines cs).length ≤ n) : lastLines n cs = lines cs := by
  rw [lastLines, Nat.sub_eq_zero_of_le few, List.drop_zero]

theorem lastLinesBehind (enough : n ≤ (lines cs).length) (front : List Char) :
    lastLines n (front ++ '\n' :: cs) = lastLines n cs := by
  have start : (lines (front ++ ['\n']) ++ lines cs).length - n =
      (lines (front ++ ['\n'])).length + ((lines cs).length - n) := by
    rw [List.length_append]
    omega
  rw [lastLines, linesBehind, start, List.drop_length_add_append]
  rfl

end

theorem tailList (s : String) (n : Nat) :
    (tail s n).toList = List.intercalate ['\n'] (lastLines n s.toList) :=
  String.toList_ofList

theorem tailCut {s : String} {n : Nat} (some : lastLines n s.toList ≠ []) :
    (tail s n).toList.splitOn '\n' = lastLines n s.toList := by
  rw [tailList]
  exact List.splitOn_intercalate '\n' (fun l member => lineText (List.mem_of_mem_drop member)) some

theorem tailBehind {s : String} {n : Nat} (enough : n ≤ (lines s.toList).length) {t : String}
    (ended : t.toList.getLast? = some '\n') : tail (t ++ s) n = tail s n := by
  obtain ⟨front, whole⟩ := List.getLast?_eq_some_iff.mp ended
  have behind : (t ++ s).toList = front ++ '\n' :: s.toList := by
    rw [String.toList_append, whole, List.append_assoc, List.singleton_append]
  rw [tail, behind, lastLinesBehind enough]
  rfl

def lineCount (s : String) : Nat := (lines s.toList).length

def tailCount (s : String) (n : Nat) : Nat := min n (lineCount s)

/- The tail of a text is exactly its last lines, and nothing of what comes before them matters. -/
theorem tailExact (s : String) (n : Nat) :
    linesFrom? (lineCount s - n) (lines s.toList) = some (lastLines n s.toList) ∧
    (tailCount s n = 0 → tail s n = "") ∧
    (tailCount s n ≠ 0 →
      (tail s n).toList.splitOn '\n' = (lines s.toList).drop (lineCount s - tailCount s n) ∧
      (tail s n).toList.count '\n' = tailCount s n - 1) ∧
    (∀ t : String, t.toList.getLast? = some '\n' → n ≤ lineCount s →
      tail (t ++ s) n = tail s n) ∧
    (lineCount s ≤ n → tail s n = tail s (lineCount s)) := by
  have size : (lastLines n s.toList).length = tailCount s n := lastLinesLength n s.toList
  refine ⟨linesFromLast n s.toList, ?_, ?_, ?_, ?_⟩
  · intro none
    rw [tail, List.eq_nil_of_length_eq_zero (size.trans none)]
    rfl
  · intro some
    have pieces := tailCut fun none => some (by rw [← size, none, List.length_nil])
    have feeds := splitLength '\n' (tail s n).toList
    rw [pieces, size] at feeds
    exact ⟨pieces.trans (lastLinesDrop n s.toList), by omega⟩
  · intro t ended enough
    exact tailBehind enough ended
  · intro few
    rw [tail, tail, lastLinesAll few, lastLinesAll (Nat.le_refl (lineCount s))]

theorem tailBlank :
    let s := "a\r\n\nb\r"
    (tail s 2).toList.splitOn '\n' = [[], ['b', '\r']] ∧ (tail s 2).toList.count '\n' = 1 ∧
      tail ("x\n" ++ s) 2 = tail s 2 ∧ tail s 9 = tail s 3 := by
  intro s
  have pieces : lines s.toList = [['a'], [], ['b', '\r']] := by decide +kernel
  have size : lineCount s = 3 := congrArg List.length pieces
  obtain ⟨_, _, last, behind, _⟩ := tailExact s 2
  obtain ⟨_, _, _, _, all⟩ := tailExact s 9
  simp only [tailCount, size] at last behind all
  obtain ⟨cuts, feeds⟩ := last (by decide)
  rw [pieces] at cuts
  exact ⟨cuts, feeds, behind "x\n" (by decide +kernel) (by decide), all (by decide)⟩

end BuildProbe.Text
