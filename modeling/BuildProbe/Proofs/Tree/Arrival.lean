import BuildProbe.Proofs.Tree.Passage

/-!
Where a path arrives. The slot of a path is found by walking along everything before its last
name; when a file is there and no slash follows, the walk along the whole path ends at it, so
whoever reads the path reads that file. When a file stands in the way to the last name, nobody
reads anything.
-/
namespace BuildProbe.Tree

open Text (Bytes)

theorem dropWhileSplit (l : List String) :
    ∃ k, l = List.replicate k "" ++ l.dropWhile (· = "") := by
  induction l with
  | nil => exact ⟨0, rfl⟩
  | cons x rest ih =>
    by_cases blank : x = ""
    · obtain ⟨k, same⟩ := ih
      refine ⟨k + 1, ?_⟩
      rw [List.dropWhile_cons_of_pos (by simpa using blank), List.replicate_succ, blank]
      exact congrArg (List.cons "") same
    · exact ⟨0, by rw [List.dropWhile_cons_of_neg (by simpa using blank)]; rfl⟩

theorem splitLastName {pieces : List String} {name : String}
    (last : (splitLast pieces).2 = .name name) :
    (name ≠ "" ∧ name ≠ "." ∧ name ≠ "..") ∧
      ∃ k, pieces = (splitLast pieces).1 ++ name :: List.replicate k "" := by
  obtain ⟨k, reversed⟩ := dropWhileSplit pieces.reverse
  unfold splitLast at last ⊢
  split at last
  · cases last
  · rename_i p before found
    rw [found] at reversed
    have filled : p ≠ "" := by
      have first := List.head_dropWhile_not (· = "") (l := pieces.reverse) (by simp [found])
      simpa [found] using first
    by_cases dots : p = "." ∨ p = ".."
    · simp only [if_pos dots] at last
      cases last
    · simp only [if_neg dots] at last
      cases last
      refine ⟨⟨filled, fun h => dots (.inl h), fun h => dots (.inr h)⟩, k, ?_⟩
      have forward := congrArg List.reverse reversed
      simpa using forward

theorem walkThrough {t : Tree} {follow : Bool} {links : Nat} {way last : List Nat}
    {before after : List String} {result : Except Errno Goal} (more : after ≠ [])
    (first : t.walk true links way before = .ok (.inside last))
    (second : ∀ links, t.walk follow links last after = result) :
    t.walk follow links way (before ++ after) = result := by
  fun_induction walk t true links way before with
  | case1 links way =>
    cases first
    exact second links
  | case2 links way piece rest skip ih =>
    rw [List.cons_append, walk, if_pos skip]
    exact ih first
  | case3 links way rest name ih =>
    rw [List.cons_append, walk, if_neg name, if_pos rfl]
    exact ih first
  | case6 links way piece rest name up long id here ih =>
    rw [List.cons_append, walk, if_neg name, if_neg up, if_neg long, here]
    exact ih first
  | case11 way piece rest name up long id target here final links ih =>
    have goesOn : ¬((rest ++ after = []) ∧ (!follow) = true) :=
      fun ended => more (List.append_eq_nil_iff.mp ended.1).2
    rw [List.cons_append, walk, if_neg name, if_neg up, if_neg long, here]
    simp only [if_neg goesOn, ← List.append_assoc]
    exact ih first
  | _ => cases first

theorem slotBare {t : Tree} {p : Path} {directory : Nat} {name : String}
    (place : t.slot p = .ok ⟨directory, .name name, false⟩) :
    (name ≠ "" ∧ name ≠ "." ∧ name ≠ "..") ∧ p.pieces = (splitLast p.pieces).1 ++ [name] := by
  obtain ⟨_, _, _, same⟩ := slotInside place
  obtain ⟨_, last, bare⟩ := Slot.mk.injEq .. ▸ same
  obtain ⟨filled, k, pieces⟩ := splitLastName last.symm
  refine ⟨filled, ?_⟩
  cases k with
  | zero => exact pieces
  | succ k =>
    rw [pieces, List.replicate_succ', ← List.cons_append, ← List.append_assoc,
      List.getLast?_concat] at bare
    exact absurd bare (by decide)

theorem resolvePlaced {t : Tree} {p : Path} {loc : Location} {e : Entry} {content : Content}
    {mode : Nat} (place : t.slot p = .ok ⟨loc.directory, .name loc.name, false⟩)
    (short : nameTooLong loc.name = false) (there : t.get? loc = some e)
    (file : e.node = .file content mode) (follow : Bool) :
    t.resolve follow p = .ok (.at loc e) := by
  obtain ⟨fit, way, walked, same⟩ := slotInside place
  obtain ⟨⟨filled, stay, up⟩, pieces⟩ := slotBare place
  have stands : loc.directory = standing way := congrArg Slot.directory same
  obtain ⟨id, node⟩ := e
  cases file
  have found : t.get? ⟨standing way, loc.name⟩ = some ⟨id, .file content mode⟩ := by
    rw [← stands]; exact there
  have ends : ∀ links,
      t.walk follow links way [loc.name] = .ok (.at loc ⟨id, .file content mode⟩) := by
    intro links
    rw [walk, if_neg (by simp [filled, stay]), if_neg up, if_neg (by simp [short]), found]
    simp [← stands]
  rw [resolve, fit]
  simp only
  rw [pieces]
  exact walkThrough (List.cons_ne_nil _ _) walked ends

theorem readPlaced {t : Tree} {p : Path} {loc : Location} {id mode : Nat} {content : Content}
    (place : t.slot p = .ok ⟨loc.directory, .name loc.name, false⟩)
    (short : nameTooLong loc.name = false) (plain : p.hasNul = false)
    (there : t.get? loc = some ⟨id, .file content mode⟩) : t.read p = .ok content.bytes := by
  have led := resolvePlaced place short there rfl true
  exact readOk.mpr ⟨id, content, mode, statOk.mpr ⟨plain, _, led, rfl⟩, rfl⟩

theorem walkHalted {t : Tree} {follow : Bool} {links : Nat} {way : List Nat}
    {before after : List String} (more : after ≠ [])
    (halted : Halted (t.walk true links way before)) :
    t.walk follow links way (before ++ after) = .error .notADirectory := by
  have goesOn : ∀ rest : List String, rest ++ after ≠ [] :=
    fun rest ended => more (List.append_eq_nil_iff.mp ended).2
  fun_induction walk t true links way before with
  | case2 links way piece rest skip ih =>
    rw [List.cons_append, walk, if_pos skip]
    exact ih halted
  | case3 links way rest name ih =>
    rw [List.cons_append, walk, if_neg name, if_pos rfl]
    exact ih halted
  | case6 links way piece rest name up long id here ih =>
    rw [List.cons_append, walk, if_neg name, if_neg up, if_neg long, here]
    exact ih halted
  | case7 links way piece name up long id content mode here =>
    rw [List.cons_append, walk, if_neg name, if_neg up, if_neg long, here]
    exact if_neg (goesOn [])
  | case8 links way piece rest name up long id content mode here inner =>
    rw [List.cons_append, walk, if_neg name, if_neg up, if_neg long, here]
    exact if_neg (goesOn rest)
  | case9 links way piece rest name up long id target here final => cases final.2
  | case11 way piece rest name up long id target here final links ih =>
    rw [List.cons_append, walk, if_neg name, if_neg up, if_neg long, here]
    simp only [goesOn rest, false_and, if_false, ← List.append_assoc]
    exact ih halted
  | _ => rcases halted with ended | ⟨_, _, ended⟩ <;> cases ended

theorem slotHalted {t : Tree} {p : Path} (halted : t.slot p = .error .notADirectory) :
    unfit? p = none ∧ Halted (t.walk true linkLimit (t.base p) (splitLast p.pieces).1) := by
  unfold slot at halted
  split at halted
  · rename_i why unfit
    cases halted
    unfold unfit? at unfit
    split at unfit
    · cases unfit
    · split at unfit <;> cases unfit
  · rename_i fit
    refine ⟨fit, ?_⟩
    dsimp only at halted
    split at halted
    · rename_i why walked
      cases halted
      exact .inl walked
    · cases halted
    · rename_i loc e walked
      exact .inr ⟨loc, e, walked⟩

theorem readHalted {t : Tree} {p : Path} {name : String}
    (last : (splitLast p.pieces).2 = .name name) (plain : p.hasNul = false)
    (halted : t.slot p = .error .notADirectory) : t.read p = .error (.system .notADirectory) := by
  obtain ⟨fit, stopped⟩ := slotHalted halted
  obtain ⟨_, k, pieces⟩ := splitLastName last
  have led : t.resolve true p = .error .notADirectory := by
    rw [resolve, fit]
    simp only
    rw [pieces]
    exact walkHalted (List.cons_ne_nil _ _) stopped
  simp only [read, stat, withPath, entry, plain, led]
  rfl

end BuildProbe.Tree
