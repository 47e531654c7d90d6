import BuildProbe.Proofs.Tree.Growth

/-!
What a walk passes through. A walk goes on at directories and links and ends at files, so a walk
that ends well only depends on the directories and links of the tree, and on the entry at its
end. A file in place of one of them can only stop it: a directory that was reached through that
place is none any more.
-/
namespace BuildProbe

open Text (Bytes)

def Entry.passable (e : Entry) : Bool :=
  match e.node with
  | .file .. => false
  | _ => true

namespace Tree

/- Every directory and every link of `t'` is in `t`; the files may be others. -/
structure Routes (t t' : Tree) : Prop where
  present : t.present = t'.present
  known : ∀ {loc e}, t'.get? loc = some e → e.passable → t.get? loc = some e

theorem walkBack {t t' : Tree} (routes : t.Routes t') {follow : Bool} {links : Nat} {way : List Nat}
    {pieces : List String} {goal : Goal} (found : t'.walk follow links way pieces = .ok goal)
    (there : ∀ loc e, goal = .at loc e → t.get? loc = some e) :
    t.walk follow links way pieces = .ok goal := by
  fun_induction walk t' follow links way pieces with
  | case1 => rw [walk]; exact found
  | case2 links way piece rest skip ih => rw [walk, if_pos skip]; exact ih found
  | case3 links way rest name ih => rw [walk, if_neg name, if_pos rfl]; exact ih found
  | case6 links way piece rest name up long id here ih =>
    have same := routes.known here rfl
    rw [walk]
    simp only [name, up, long, same, if_false]
    exact ih found
  | case7 links way piece name up long id content mode here =>
    have same := there _ _ (Except.ok.inj found).symm
    rw [walk]
    simp only [name, up, long, same, if_true, if_false]
    exact found
  | case9 links way piece rest name up long id target here last =>
    have same := routes.known here rfl
    rw [walk]
    simp only [name, up, long, same, if_false, if_pos last]
    exact found
  | case11 way piece rest name up long id target here last links ih =>
    have same := routes.known here rfl
    rw [walk]
    simp only [name, up, long, same, if_false, if_neg last]
    exact ih found
  | _ => cases found

theorem walkAt {t : Tree} {follow : Bool} {links : Nat} {way : List Nat} {pieces : List String}
    {loc : Location} {e : Entry} (found : t.walk follow links way pieces = .ok (.at loc e)) :
    t.get? loc = some e := by
  fun_induction walk t follow links way pieces with
  | case2 links way piece rest skip ih => exact ih found
  | case3 links way rest name ih => exact ih found
  | case6 links way piece rest name up long id here ih => exact ih found
  | case7 links way piece name up long id content mode here =>
    cases found
    exact here
  | case9 links way piece rest name up long id target here last =>
    cases found
    exact here
  | case11 way piece rest name up long id target here last links ih => exact ih found
  | _ => cases found

/- A walk in which no step leads into a directory any more. -/
def Halted (result : Except Errno Goal) : Prop :=
  result = .error .notADirectory ∨ ∃ loc e, result = .ok (.at loc e)

theorem walkBlocked {t t' : Tree}
    (kept : ∀ {loc e}, t.get? loc = some e → e.passable →
      t'.get? loc = some e ∨ ∃ id content mode, t'.get? loc = some ⟨id, .file content mode⟩)
    {links : Nat} {way last : List Nat} {pieces : List String}
    (found : t.walk true links way pieces = .ok (.inside last)) :
    t'.walk true links way pieces = .ok (.inside last) ∨
      Halted (t'.walk true links way pieces) := by
  have stop : ∀ {links way piece rest id content mode}, ¬(piece = "" ∨ piece = ".") →
      ¬ piece = ".." → ¬ nameTooLong piece = true →
      t'.get? ⟨standing way, piece⟩ = some ⟨id, .file content mode⟩ →
      Halted (t'.walk true links way (piece :: rest)) := by
    intro links way piece rest id content mode name up long file
    rw [walk, if_neg name, if_neg up, if_neg long, file]
    by_cases last : rest = []
    · exact .inr ⟨_, _, if_pos last⟩
    · exact .inl (if_neg last)
  fun_induction walk t true links way pieces with
  | case1 => rw [walk]; exact .inl found
  | case2 links way piece rest skip ih => rw [walk, if_pos skip]; exact ih found
  | case3 links way rest name ih => rw [walk, if_neg name, if_pos rfl]; exact ih found
  | case6 links way piece rest name up long id here ih =>
    rcases kept here rfl with same | ⟨_, _, _, file⟩
    · rw [walk]
      simp only [name, up, long, same, if_false]
      exact ih found
    · exact .inr (stop name up long file)
  | case11 way piece rest name up long id target here last links ih =>
    rcases kept here rfl with same | ⟨_, _, _, file⟩
    · rw [walk]
      simp only [name, up, long, same, if_false, if_neg last]
      exact ih found
    · exact .inr (stop name up long file)
  | _ => cases found

theorem slotInside {t : Tree} {p : Path} {s : Slot} (here : t.slot p = .ok s) :
    unfit? p = none ∧ ∃ way, t.walk true linkLimit (t.base p) (splitLast p.pieces).1
        = .ok (.inside way) ∧
      s = ⟨standing way, (splitLast p.pieces).2, p.pieces.getLast? = some ""⟩ := by
  unfold slot at here
  split at here <;> try contradiction
  rename_i fit
  refine ⟨fit, ?_⟩
  dsimp only at here
  split at here <;> try contradiction
  rename_i way walked
  exact ⟨way, walked, (Except.ok.inj here).symm⟩

theorem slotName {t : Tree} {p : Path} {directory : Nat} {name : String} {slashed : Bool}
    (here : t.slot p = .ok ⟨directory, .name name, slashed⟩) :
    (splitLast p.pieces).2 = .name name := by
  obtain ⟨_, way, _, same⟩ := slotInside here
  exact (congrArg Slot.last same).symm

theorem slotBack {t t' : Tree} (routes : t.Routes t') {p : Path} {s : Slot}
    (here : t'.slot p = .ok s) : t.slot p = .ok s := by
  obtain ⟨fit, way, walked, same⟩ := slotInside here
  have base : t.base p = t'.base p := by simp only [Tree.base, routes.present]
  have back := walkBack routes walked (by intro _ _ ended; cases ended)
  rw [slot, fit, same]
  simp only [base, back]

theorem resolveBack {t t' : Tree} (routes : t.Routes t') {follow : Bool} {p : Path} {goal : Goal}
    (found : t'.resolve follow p = .ok goal)
    (there : ∀ loc e, goal = .at loc e → t.get? loc = some e) : t.resolve follow p = .ok goal := by
  unfold resolve at found ⊢
  split at found <;> try contradiction
  rename_i fit
  have base : t.base p = t'.base p := by simp only [Tree.base, routes.present]
  rw [base]
  exact walkBack routes found there

theorem resolveAt {t : Tree} {follow : Bool} {p : Path} {loc : Location} {e : Entry}
    (found : t.resolve follow p = .ok (.at loc e)) : t.get? loc = some e := by
  unfold resolve at found
  split at found <;> try contradiction
  exact walkAt found

theorem slotBlocked {t t' : Tree} (present : t'.present = t.present)
    (kept : ∀ {loc e}, t.get? loc = some e → e.passable →
      t'.get? loc = some e ∨ ∃ id content mode, t'.get? loc = some ⟨id, .file content mode⟩)
    {p : Path} {s : Slot} (here : t.slot p = .ok s) :
    t'.slot p = .ok s ∨ t'.slot p = .error .notADirectory := by
  obtain ⟨fit, way, walked, same⟩ := slotInside here
  have base : t'.base p = t.base p := by simp only [Tree.base, present]
  unfold slot
  simp only [fit, base]
  rcases walkBlocked kept walked with inside | halted | ⟨loc, e, stopped⟩
  · simp only [inside, same, true_or]
  · simp only [halted, or_true]
  · simp only [stopped, or_true]

end Tree
end BuildProbe
