import BuildProbe.Rehearsal

/-!
What a shelf has after something was to be kept on it. Paths are told apart by their components
alone. What a shelf answers depends on what it has at the path, and only that path is touched.
-/
namespace BuildProbe

theorem contentsPut (s : Shelf) (p q : Path) (text : String) :
    (s.put p text).contents? q = if q.normal = p.normal then some text else s.contents? q := by
  unfold Shelf.contents? Shelf.put
  by_cases same : q.normal = p.normal
  · simp [same]
  · simp only [same, if_false]
    rw [List.find?_cons_of_neg (by simpa using Ne.symm same)]
    congr 1
    induction s.artifacts with
    | nil => rfl
    | cons artifact rest ih =>
      by_cases here : artifact.1 = p.normal
      · have miss : ¬ artifact.1 = q.normal := fun h => same (h.symm.trans here)
        simp only [List.filter_cons, here, List.find?_cons]
        simpa [miss, here ▸ miss] using ih
      · by_cases hit : artifact.1 = q.normal
        · simp [hit, same]
        · simp only [List.filter_cons, List.find?_cons, hit]
          simpa [here, hit] using ih

namespace Shelf

variable (s : Shelf) (p : Path) (flags : List Flag)

theorem contentsAlike {p q : Path} (alike : p.normal = q.normal) : s.contents? p = s.contents? q := by
  rw [contents?, contents?, alike]

theorem persistResult :
    (s.persist p flags).1 = match s.failure with
      | some reason => .error ⟨p.text, reason⟩
      | none => if s.contents? p = some (Artifact.render flags) then .ok .unchanged
        else .ok .written := by
  unfold persist
  cases s.failure with
  | some reason => rfl
  | none =>
    dsimp only
    split <;> rfl

theorem persistWorks : (∃ outcome, (s.persist p flags).1 = .ok outcome) ↔ s.failure = none := by
  rw [persistResult]
  cases s.failure with
  | some reason => simp
  | none =>
    dsimp only
    split <;> simp

theorem persistOutcome {outcome : Outcome} (kept : (s.persist p flags).1 = .ok outcome) :
    outcome = .unchanged ↔ s.contents? p = some (Artifact.render flags) := by
  have working := (s.persistWorks p flags).mp ⟨outcome, kept⟩
  rw [persistResult, working] at kept
  dsimp only at kept
  split at kept
  · rename_i same
    cases kept
    exact ⟨fun _ => same, fun _ => rfl⟩
  · rename_i other
    cases kept
    exact ⟨nofun, fun same => absurd same other⟩

theorem persistCounts :
    (s.persist p flags).2.attempts = s.attempts + 1 ∧ (s.persist p flags).2.failure = s.failure := by
  unfold persist
  cases s.failure with
  | some reason => exact ⟨rfl, rfl⟩
  | none =>
    dsimp only
    split <;> exact ⟨rfl, rfl⟩

theorem persistContents (q : Path) :
    (s.persist p flags).2.contents? q =
      if s.failure = none ∧ q.normal = p.normal then some (Artifact.render flags)
      else s.contents? q := by
  unfold persist
  cases working : s.failure with
  | some reason => exact (if_neg (by simp)).symm
  | none =>
    dsimp only
    split
    · rename_i same
      split
      · rename_i alike
        exact (s.contentsAlike alike.2).trans same
      · rfl
    · rw [contentsPut]
      simp only [true_and]
      rfl

end Shelf
end BuildProbe
