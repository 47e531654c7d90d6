import BuildProbe.Path
import BuildProbe.Proofs.Text.Rows

/-!
Paths as they are spelled. A path that is read from a text has that text again, and what stands
behind the last slash of the text is the path's last piece.
-/
namespace BuildProbe.Path

theorem textOfText (s : String) : (ofText s).text = s := by
  have joined : ∀ cs, ("/".intercalate (piecesOf cs)).toList = cs := by
    intro cs
    unfold piecesOf
    split
    · rename_i none
      rw [none]
      simp
    · rw [String.toList_intercalate, List.map_map]
      have same : String.toList ∘ String.ofList = id := by
        funext piece
        exact String.toList_ofList
      rw [same, List.map_id]
      exact List.intercalate_splitOn '/'
  rw [← String.toList_inj]
  unfold ofText
  split
  · rename_i cs absolute
    simp only [text, String.toList_append, joined, absolute]
    rfl
  · simp only [text, String.toList_append, joined]
    rfl

def behindSlash (s : String) : String :=
  String.ofList (s.toList.reverse.takeWhile (· != '/')).reverse

theorem behindPlain (s : String) : '/' ∉ (behindSlash s).toList := by
  rw [behindSlash, String.toList_ofList, List.mem_reverse]
  intro slash
  have other := List.all_eq_true.mp List.all_takeWhile _ slash
  simp at other

theorem behindSplit (s : String) : ∃ front, s.toList = front ++ (behindSlash s).toList ∧
    (front = [] ∨ ∃ more, front = more ++ ['/']) := by
  have whole := List.takeWhile_append_dropWhile (p := (· != '/')) (l := s.toList.reverse)
  refine ⟨(s.toList.reverse.dropWhile (· != '/')).reverse, ?_, ?_⟩
  · rw [behindSlash, String.toList_ofList, ← List.reverse_append, whole, List.reverse_reverse]
  · cases ends : s.toList.reverse.dropWhile (· != '/') with
    | nil => exact .inl rfl
    | cons c rest =>
      have slash := List.head_dropWhile_not (· != '/') (l := s.toList.reverse) (by rw [ends]; simp)
      simp only [ends, List.head_cons, bne_eq_false_iff_eq] at slash
      exact .inr ⟨rest.reverse, by rw [slash, List.reverse_cons]⟩

theorem piecesLast {front : List Char} {name : String} (filled : name ≠ "")
    (plain : '/' ∉ name.toList) (slashed : front = [] ∨ ∃ more, front = more ++ ['/']) :
    ∃ before, piecesOf (front ++ name.toList) = before ++ [name] := by
  have some : front ++ name.toList ≠ [] := fun none =>
    filled (String.toList_eq_nil_iff.mp (List.append_eq_nil_iff.mp none).2)
  have piece : (List.splitOn '/' name.toList).map String.ofList = [name] := by
    rw [List.splitOn_eq_singleton plain, List.map_singleton, String.ofList_toList]
  rw [piecesOf, if_neg some]
  rcases slashed with rfl | ⟨more, rfl⟩
  · exact ⟨[], piece⟩
  · refine ⟨(more.splitOn '/').map String.ofList, ?_⟩
    rw [List.append_assoc, List.singleton_append, List.splitOn_append_cons_self, List.map_append,
      piece]

theorem piecesBehind {s : String} (filled : behindSlash s ≠ "") :
    ∃ before, (ofText s).pieces = before ++ [behindSlash s] := by
  obtain ⟨front, whole, slashed⟩ := behindSplit s
  have plain := behindPlain s
  unfold ofText
  split
  · rename_i cs absolute
    -- The slash at the front of the text belongs to no piece.
    rw [whole] at absolute
    cases front with
    | nil =>
      rw [List.nil_append] at absolute
      exact absurd (absolute ▸ List.mem_cons_self) plain
    | cons c front =>
      obtain ⟨-, rfl⟩ := List.cons.inj absolute
      refine piecesLast filled plain ?_
      rcases slashed with none | ⟨more, ends⟩
      · cases none
      · cases more with
        | nil => exact .inl (List.cons.inj ends).2
        | cons c more => exact .inr ⟨more, (List.cons.inj ends).2⟩
  · rw [whole]
    exact piecesLast filled plain slashed

end BuildProbe.Path
