import BuildProbe.Proofs.Artifact.Company
import BuildProbe.Proofs.Tree.Sight

/-!
What drafts pledge to a tree. Each pledges the directories ahead of it and, if its fate is to be
written, the artifact. Whatever the writings do, in whatever order, is among their pledges, so that
what is promised stays the same, and in the end it is what is there.
-/
namespace BuildProbe

open Text (Bytes)

structure Stake where
  draft : Draft
  fate : Except WriteFailure Outcome
  bits : Nat

namespace Stake

def writes (s : Stake) : Bool :=
  match s.fate with
  | .ok .written => true
  | _ => false

theorem writesWritten {s : Stake} : s.writes ↔ s.fate = .ok .written := by
  unfold writes
  split <;> simp_all

def pledge (s : Stake) (t : Tree) : Tree.Pledge :=
  if (Tree.barred? s.draft.path.directory).isSome then ⟨Tree.root, [], .directory⟩
  else
    let a := t.toward s.draft.path.directory
    if s.writes ∧ a.outlook = .clear then
      ⟨Tree.standing a.way, a.ahead ++ [Tree.lastName s.draft.path],
        .file (.data s.draft.content) s.bits⟩
    else ⟨Tree.standing a.way, a.ahead, .directory⟩

variable {s : Stake} {t t' : Tree}

theorem pledgeKnown (settled : t.Settled) : t.Known (s.pledge t).base := by
  unfold pledge
  split
  · exact .inl rfl
  · have known := Writing.knownStanding settled s.draft.path.directory
    simp only
    split <;> exact known

theorem pledgeSame (toward : t'.toward s.draft.path.directory = t.toward s.draft.path.directory) :
    s.pledge t' = s.pledge t := by
  simp only [pledge, toward]

theorem pledgeEntered {loc : Location} {id : Nat}
    (toward : t'.toward s.draft.path.directory = (t.toward s.draft.path.directory).entered loc id)
    (elsewhere : t.place? s.draft.path ≠ some loc) :
    s.pledge t' = (s.pledge t).entered loc id := by
  unfold pledge
  split
  · rfl
  · simp only [toward, Tree.enteredOutlook]
    generalize approached : t.toward s.draft.path.directory = a
    obtain ⟨way, ahead, outlook⟩ := a
    by_cases written : s.writes ∧ outlook = .clear
    · simp only [if_pos written]
      cases ahead with
      | nil =>
        obtain ⟨_, rfl⟩ := written
        rw [Tree.placeArrived approached] at elsewhere
        refine Eq.symm (if_neg fun same => elsewhere (congrArg some same))
      | cons m l =>
        rw [Tree.enteredAhead]
        simp only [Tree.Pledge.entered, List.cons_append]
        split <;> rfl
    · simp only [if_neg written]
      cases ahead with
      | nil => rfl
      | cons m l =>
        rw [Tree.enteredAhead]
        simp only [Tree.Pledge.entered]
        split <;> rfl

theorem pledgeSolid {loc : Location} (elsewhere : t.place? s.draft.path ≠ some loc)
    (base : (s.pledge t).base = loc.directory) (reach : (s.pledge t).reach = [loc.name]) :
    (s.pledge t).last = .directory := by
  unfold pledge at base reach ⊢
  split at base
  · rename_i barred
    rw [if_pos barred]
  · rename_i free
    simp only [if_neg free] at base reach ⊢
    generalize approached : t.toward s.draft.path.directory = a at base reach ⊢
    obtain ⟨way, ahead, outlook⟩ := a
    by_cases written : s.writes ∧ outlook = .clear
    · simp only [if_pos written] at base reach
      obtain ⟨_, rfl⟩ := written
      cases ahead with
      | nil =>
        rw [Tree.placeArrived approached] at elsewhere
        have name := (List.cons.inj reach).1
        exact absurd (congrArg some (by rw [base, name])) elsewhere
      | cons m l => simp at reach
    · simp only [if_neg written]

theorem pledgeAhead {way : List Nat} {m : String} {l : List String} {outlook : Tree.Outlook}
    (free : Tree.barred? s.draft.path.directory = none)
    (ahead : t.toward s.draft.path.directory = ⟨way, m :: l, outlook⟩) :
    (s.pledge t).Takes ⟨Tree.standing way, m⟩ := by
  unfold pledge
  rw [free, ahead]
  simp only [Option.isSome_none, Bool.false_eq_true, if_false]
  split
  · exact ⟨rfl, _, rfl⟩
  · exact ⟨rfl, l, rfl⟩

theorem pledgeArrived {way : List Nat} (free : Tree.barred? s.draft.path.directory = none)
    (written : s.fate = .ok .written)
    (arrived : t.toward s.draft.path.directory = ⟨way, [], .clear⟩) :
    s.pledge t = ⟨Tree.standing way, [Tree.lastName s.draft.path],
      .file (.data s.draft.content) s.bits⟩ := by
  unfold pledge
  rw [free, arrived]
  simp only [Option.isSome_none, Bool.false_eq_true, if_false]
  rw [if_pos ⟨writesWritten.mpr written, trivial⟩]
  rfl

theorem pledgeKept {result : Except WriteFailure Outcome}
    (stage : Writing.Stage s.draft s.fate s.bits t (.done result)) : (s.pledge t).Kept t := by
  obtain ⟨_, ended, there⟩ := stage
  cases barred : Tree.barred? s.draft.path.directory with
  | some why =>
    left
    rw [pledge, barred]
    rfl
  | none =>
    have ended := ended barred
    by_cases written : s.fate = .ok .written
    · obtain ⟨id, there⟩ := there written
      obtain ⟨way, arrived, found⟩ := Tree.spotArrived there
      rw [pledgeArrived barred written arrived]
      exact .inr ⟨_, id, _, _, rfl, rfl, found⟩
    · left
      rw [pledge, barred]
      have owes : ¬ s.writes = true := fun writes => written (writesWritten.mp writes)
      simp only [Option.isSome_none, Bool.false_eq_true, if_false, owes, false_and]
      exact ended

end Stake

namespace Writing

variable {a : Stake} {stakes : List Stake} {t t' : Tree}

theorem deedPromised (deed : Deed a.draft a.fate a.bits t t') (member : a ∈ stakes)
    (fresh : a.draft.Fresh) (settled : t.Settled) (own : t.Straight a.draft.path)
    (others : ∀ s ∈ stakes, s = a ∨ Aside a.draft t s.draft.path) {directory : Nat}
    (known : t.Known directory) {names : List String} (plain : a.draft.name ∉ names) :
    t'.promised (stakes.map (·.pledge t')) directory names =
      t.promised (stakes.map (·.pledge t)) directory names := by
  have parties : ∀ s ∈ stakes, Party a.draft t s.draft.path := by
    intro s member
    rcases others s member with rfl | aside
    · exact .own rfl fresh settled own
    · exact .aside aside
  have kept : (∀ s ∈ stakes, t'.toward s.draft.path.directory = t.toward s.draft.path.directory) →
      stakes.map (·.pledge t') = stakes.map (·.pledge t) := fun same =>
    List.map_congr_left fun s member => Stake.pledgeSame (same s member)
  cases deed with
  | idle same => rw [same]
  | @paved way m l outlook ahead free made =>
    subst made
    have stood := aheadKnown settled ahead
    have elsewhere : ∀ s ∈ stakes, t.place? s.draft.path ≠ some ⟨Tree.standing way, m⟩ := by
      intro s member
      rcases others s member with rfl | aside
      · rw [Tree.place?, ahead]
        rintro ⟨⟩
      · exact pavedElsewhere aside ahead
    have entered : stakes.map (·.pledge (t.add ⟨Tree.standing way, m⟩ .directory)) =
        (stakes.map (·.pledge t)).map (·.entered ⟨Tree.standing way, m⟩ t.freshId) := by
      rw [List.map_map]
      refine List.map_congr_left fun s member => Stake.pledgeEntered ?_ (elsewhere s member)
      exact Tree.towardEntered (aheadOwn ahead).1 stood (parties s member).onward
    rw [entered]
    refine Tree.promisedPaved (aheadOwn ahead).1 stood ?_ ?_ ?_ known names
    · intro g member
      obtain ⟨s, _, rfl⟩ := List.mem_map.mp member
      exact Stake.pledgeKnown settled
    · exact ⟨a.pledge t, List.mem_map_of_mem member, Stake.pledgeAhead free ahead⟩
    · intro g member base reach
      obtain ⟨s, staked, rfl⟩ := List.mem_map.mp member
      exact Stake.pledgeSolid (elsewhere s staked) base reach
  | drafted spares =>
    rw [kept fun s member => Tree.towardSpared spares (parties s member).onward
      (parties s member).strange, Tree.promisedSpared spares.others plain]
  | placed written free arrived lands present directories there others' =>
    obtain ⟨id, there⟩ := there
    have same : ∀ s ∈ stakes,
        t'.toward s.draft.path.directory = t.toward s.draft.path.directory := fun s member =>
      Tree.towardPlaced present directories ⟨_, _, _, there⟩ others' (parties s member).onward
        (parties s member).strange fun m l ahead => (parties s member).front arrived ahead
    rw [kept same, Tree.promisedPlaced (Tree.spotPlace arrived ▸ (Tree.landingNone lands).2.2.2.2)
      ⟨_, _, _, there⟩ others' _ plain]
    refine ⟨a.pledge t, List.mem_map_of_mem member, ?_⟩
    rw [Stake.pledgeArrived free written arrived]
    exact ⟨rfl, rfl⟩

end Writing
end BuildProbe
