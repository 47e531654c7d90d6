import BuildProbe.Proofs.Environment.Values
import BuildProbe.Proofs.Text.Order

/-!
What an invocation sets in the end. However its variables are set, one by one or several at once,
it is the sequence of all of them that counts, and of that only the last one of each name. So two
invocations are the same exactly when they give every name the same value: an assignment may change
places with the next one unless both are for one name, differ, and none for that name follows; and
nothing changes exactly when every name ends up with the value that it had.
-/
namespace BuildProbe

namespace Environment

theorem memberGet (e : Environment) (w : String × String) :
    w ∈ e.vars ↔ e.get? w.1 = some w.2 := by
  obtain ⟨vars, ordered⟩ := e
  simp only [get?]
  induction vars with
  | nil => simp
  | cons v rest ih =>
    obtain ⟨first, later⟩ := List.pairwise_cons.mp ordered
    by_cases own : v.1 = w.1
    · have absent : w ∉ rest := fun member => String.lt_irrefl w.1 (own ▸ first w member)
      simp only [List.mem_cons, absent, or_false, List.find?_cons, own, decide_true,
        Option.map_some, Option.some.injEq]
      exact ⟨fun same => same ▸ rfl, fun value => Prod.ext own.symm value.symm⟩
    · have other : w ≠ v := fun same => own (same ▸ rfl)
      simp only [List.mem_cons, other, false_or, List.find?_cons, own, decide_false]
      exact ih later

theorem sameValues {e e' : Environment} (same : ∀ name, e.get? name = e'.get? name) : e = e' := by
  have members : ∀ w, w ∈ e.vars ↔ w ∈ e'.vars := by
    intro w
    rw [memberGet, memberGet, same]
  have asymm : Std.Antisymm fun v w : String × String => v.1 < w.1 :=
    ⟨fun v w before behind => absurd (String.lt_trans before behind) (String.lt_irrefl _)⟩
  have irrefl : Std.Irrefl fun v w : String × String => v.1 < w.1 :=
    ⟨fun v => String.lt_irrefl v.1⟩
  have vars : e.vars = e'.vars := List.Pairwise.eq_of_mem_iff e.ordered e'.ordered members
  cases e
  cases e'
  cases vars
  rfl

theorem lastOfAppend (before after : List (String × String)) (name : String) :
    lastOf? (before ++ after) name = (lastOf? after name).or (lastOf? before name) := by
  simp only [lastOf?, List.reverse_append, List.find?_append]
  cases after.reverse.find? (·.1 = name) <;> rfl

theorem lastOfNone {vars : List (String × String)} {name : String} :
    lastOf? vars name = none ↔ ∀ w ∈ vars, w.1 ≠ name := by
  simp [lastOf?]

theorem lastOfStart (e : Environment) (vars : List (String × String)) (name : String) :
    lastOf? (e.vars ++ vars) name = (lastOf? vars name).or (e.get? name) := by
  rw [lastOfAppend, lastOfOrdered e.ordered]
  rfl

end Environment

namespace Invocation

open Environment

def Step.assignments : Step → List (String × String)
  | .set name value => [(name, value)]
  | .setAll vars => vars

def assignments (steps : List Step) : List (String × String) := steps.flatMap Step.assignments

def after (start : Invocation) (steps : List Step) : Invocation := steps.foldl apply start

variable {start : Invocation} {steps steps' : List Step}

theorem afterAssignments (start : Invocation) (steps : List Step) :
    start.after steps = start.withVariables (assignments steps) := by
  induction steps generalizing start with
  | nil => rfl
  | cons s rest ih =>
    have first : start.apply s = start.withVariables s.assignments := by cases s <;> rfl
    have later : start.after (s :: rest) = (start.apply s).after rest := rfl
    have whole : assignments (s :: rest) = s.assignments ++ assignments rest := List.flatMap_cons
    rw [later, ih, first, whole]
    simp only [withVariables, setAll, List.foldl_append]

theorem historyAfter (start : Invocation) (steps : List Step) :
    start.history steps = steps.inits.tail.map start.after := by
  induction steps generalizing start with
  | nil => rfl
  | cons s rest ih =>
    have inits : rest.inits = [] :: rest.inits.tail := by cases rest <;> rfl
    rw [history, ih, List.inits_cons, List.tail_cons, List.map_map, inits, List.map_cons,
      List.tail_cons]
    rfl

theorem afterProgram (start : Invocation) (steps : List Step) :
    (start.after steps).program = start.program := by
  rw [afterAssignments]
  rfl

theorem afterGet (start : Invocation) (steps : List Step) (name : String) :
    (start.after steps).overrides.get? name =
      (lastOf? (assignments steps) name).or (start.overrides.get? name) := by
  rw [afterAssignments]
  exact getSetAll ..

theorem afterHolds (start : Invocation) (steps : List Step) (w : String × String) :
    w ∈ (start.after steps).overrides.vars ↔
      lastOf? (start.overrides.vars ++ assignments steps) w.1 = some w.2 := by
  rw [memberGet, afterGet, lastOfStart]

theorem afterNames (start : Invocation) (steps : List Step) (name : String) :
    name ∈ (start.after steps).overrides.vars.map (·.1) ↔
      name ∈ (start.overrides.vars ++ assignments steps).map (·.1) := by
  simp only [List.mem_map]
  constructor
  · rintro ⟨w, member, rfl⟩
    have held := (afterHolds start steps w).mp member
    by_contra missing
    rw [lastOfNone.mpr fun v known own => missing ⟨v, known, own⟩] at held
    cases held
  · rintro ⟨w, member, rfl⟩
    cases last : lastOf? (start.overrides.vars ++ assignments steps) w.1 with
    | none => exact absurd rfl (lastOfNone.mp last w member)
    | some value => exact ⟨(w.1, value), (afterHolds start steps _).mpr last, rfl⟩

theorem afterOrdered (start : Invocation) (steps : List Step) :
    (start.after steps).overrides.vars.Pairwise
      fun v w => Text.encode v.1 < Text.encode w.1 :=
  (start.after steps).overrides.ordered.imp Text.encodeLess.mpr

theorem sameAfter : start.after steps = start.after steps' ↔
    ∀ name, (start.after steps).overrides.get? name = (start.after steps').overrides.get? name := by
  constructor
  · intro same name
    rw [same]
  · intro same
    have program := (afterProgram start steps).trans (afterProgram start steps').symm
    have overrides := sameValues same
    generalize start.after steps = i at program overrides
    generalize start.after steps' = j at program overrides
    cases i
    cases j
    cases program
    cases overrides
    rfl

theorem startAfter : start.after steps = start ↔
    ∀ w ∈ assignments steps, ∃ value, lastOf? (assignments steps) w.1 = some value ∧
      (w.1, value) ∈ start.overrides.vars := by
  have compare : start.after steps = start.after [] ↔ _ := sameAfter
  have still : start.after [] = start := rfl
  simp only [still, afterGet] at compare
  rw [compare]
  constructor
  · intro same w member
    cases last : lastOf? (assignments steps) w.1 with
    | none => exact absurd rfl (lastOfNone.mp last w member)
    | some value =>
      have kept := same w.1
      rw [last] at kept
      exact ⟨value, rfl, (memberGet _ _).mpr kept.symm⟩
  · intro held name
    cases last : lastOf? (assignments steps) name with
    | none => rfl
    | some value =>
      obtain ⟨w, known, own⟩ : ∃ w ∈ assignments steps, w.1 = name := by
        by_contra missing
        rw [lastOfNone.mpr fun v known own => missing ⟨v, known, own⟩] at last
        cases last
      obtain ⟨value', last', member⟩ := held w known
      rw [own, last] at last'
      cases last'
      have kept := (memberGet _ _).mp member
      rw [own] at kept
      exact kept.symm

theorem swappedAfter {before later : List (String × String)} {a b : String × String}
    (first : assignments steps = before ++ a :: b :: later)
    (second : assignments steps' = before ++ b :: a :: later) :
    start.after steps = start.after steps' ↔
      a.1 ≠ b.1 ∨ a.2 = b.2 ∨ ∃ w ∈ later, w.1 = a.1 := by
  rw [sameAfter]
  simp only [afterGet, first, second, lastOfAppend, lastOfCons]
  constructor
  · intro same
    by_contra apart
    simp only [not_or, not_not, not_exists, not_and] at apart
    obtain ⟨name, value, last⟩ := apart
    have here := same a.1
    rw [lastOfNone.mpr last] at here
    simp [name, Ne.symm value] at here
  · intro allowed name
    congr 2
    cases held : lastOf? later name with
    | some value => rfl
    | none =>
      by_cases own : a.1 = name
      · by_cases own' : b.1 = name
        · rcases allowed with apart | same | ⟨w, member, known⟩
          · exact absurd (own.trans own'.symm) apart
          · simp [own, own', same]
          · exact absurd (known.trans own) (lastOfNone.mp held w member)
        · simp [own, own']
      · simp [own]

theorem overridesSettle :
    (∀ (start : Invocation) (steps : List Step),
      (start.after steps).program = start.program ∧
      (start.after steps).overrides.vars.Pairwise
        (fun v w => Text.encode v.1 < Text.encode w.1) ∧
      (∀ name, name ∈ (start.after steps).overrides.vars.map (·.1) ↔
        name ∈ (start.overrides.vars ++ assignments steps).map (·.1)) ∧
      (∀ w, w ∈ (start.after steps).overrides.vars ↔
        lastOf? (start.overrides.vars ++ assignments steps) w.1 = some w.2) ∧
      (start.after steps = start ↔ ∀ w ∈ assignments steps, ∃ value,
        lastOf? (assignments steps) w.1 = some value ∧ (w.1, value) ∈ start.overrides.vars)) ∧
    (∀ (start : Invocation) (steps : List Step),
      start.history steps = steps.inits.tail.map start.after) ∧
    ∀ (start : Invocation) (steps steps' : List Step),
      (assignments steps = assignments steps' → start.after steps = start.after steps') ∧
      ∀ before a b later, assignments steps = before ++ a :: b :: later →
        assignments steps' = before ++ b :: a :: later →
        (start.after steps = start.after steps' ↔
          a.1 ≠ b.1 ∨ a.2 = b.2 ∨ ∃ w ∈ later, w.1 = a.1) := by
  refine ⟨?_, historyAfter, ?_⟩
  · intro start steps
    exact ⟨afterProgram start steps, afterOrdered start steps, afterNames start steps,
      afterHolds start steps, startAfter⟩
  · intro start steps steps'
    refine ⟨?_, fun before a b later => swappedAfter⟩
    intro same
    rw [afterAssignments, afterAssignments, same]

theorem targetsSwapped :
    let start := untargeted "p"
    let a := ("TARGET", "x")
    let b := ("TARGET", "y")
    start.after [.setAll [a, b]] ≠ start.after [.set b.1 b.2, .set a.1 a.2] ∧
      start.after [.setAll [a, b], .set "TARGET" "z"] =
        start.after [.set b.1 b.2, .setAll [a, ("TARGET", "z")]] ∧
      start.after [.setAll [a, b], .set "TARGET" ""] = start := by
  intro start a b
  have swaps := fun steps steps' => (overridesSettle.2.2 start steps steps').2
  refine ⟨?_, ?_, ?_⟩
  · intro same
    have apart := (swaps _ _ [] a b [] rfl rfl).mp same
    simp [a, b] at apart
  · exact (swaps _ _ [] a b [("TARGET", "z")] rfl rfl).mpr (.inr (.inr
      ⟨("TARGET", "z"), List.mem_singleton.mpr rfl, rfl⟩))
  · obtain ⟨_, _, _, _, unchanged⟩ :=
      overridesSettle.1 start [.setAll [a, b], .set "TARGET" ""]
    refine unchanged.mpr fun w member => ⟨"", ?_⟩
    have own : w.1 = "TARGET" := by
      simp only [assignments, Step.assignments, List.flatMap_cons, List.flatMap_nil, a, b] at member
      simp only [List.cons_append, List.nil_append, List.mem_cons, List.not_mem_nil, or_false]
        at member
      rcases member with rfl | rfl | rfl <;> rfl
    rw [own]
    exact ⟨rfl, List.mem_singleton.mpr rfl⟩

end Invocation
end BuildProbe
