import BuildProbe.Proofs.Artifact.Drafting

/-!
Writings that are looked at, cut off, or refused something on the way. A writing has reached a
state when steps lead there, each of them done or refused. What holds of every state it can reach
is what any observer sees and what any interruption leaves behind. A writing that is left to
finish reaches its end by steps that are done as far as the system lets them.
-/
namespace BuildProbe

def Disk.Refuses (disk : Disk) (w : Writing) : Prop := (disk.refuses w).isSome = true

theorem Disk.discards (disk : Disk) : ¬∃ file why, disk.Refuses (.discarding file why) := by
  rintro ⟨file, why, refused⟩
  simp [Refuses, disk.clears] at refused

theorem Disk.soundDoes (w : Writing) : ¬Disk.sound.Refuses w := nofun

namespace Writing

inductive Reaches (may : Writing → Prop) (d : Draft) (before : Tree) : Tree → Writing → Prop where
  | start : Reaches may d before before .comparing
  | step {now w} (so : Reaches may d before now w) :
      Reaches may d before (w.step d now).1 (w.step d now).2
  | refuse {now w} (so : Reaches may d before now w) (refusable : may w) (why : Errno) :
      Reaches may d before now (w.refused d why)

theorem onWayDirectory (d : Draft) : OnWay d d.path.directory := d.path.directoryLeads

theorem comparingStep {may d} {before : Tree} :
    Stands may d before (step d before .comparing).1 (step d before .comparing).2 := by
  have climbing : Stands may d before before (.climbing d.path.directory []) :=
    ⟨before.pavedRefl d.path, by simpa using onWayDirectory d⟩
  simp only [step]
  split
  · exact ⟨rfl, .inl (before.pavedRefl d.path)⟩
  · split
    · rename_i bytes held
      split
      · rename_i same
        exact ⟨rfl, same ▸ held⟩
      · exact climbing
    · exact climbing

theorem climbingStep {may d before now dir missing}
    (stands : Stands may d before now (.climbing dir missing)) :
    Stands may d before (step d now (.climbing dir missing)).1
      (step d now (.climbing dir missing)).2 := by
  obtain ⟨paved, ways⟩ := stands
  have onWay := ways dir List.mem_cons_self
  have rest : ∀ part ∈ missing, OnWay d part := fun part h => ways part (List.mem_cons_of_mem _ h)
  simp only [step]
  split
  · exact ⟨paved, rest⟩
  · split
    · rename_i made
      exact ⟨Tree.pavedMkdir paved onWay made, rest⟩
    · rename_i why refusal
      split
      · rename_i absent
        split
        · rename_i above higher
          refine ⟨paved, ?_⟩
          intro part member
          rcases List.mem_cons.mp member with rfl | lower
          · -- The present directory has no part above it, but it is never missing either.
            rcases onWay with rfl | leads
            · rw [Tree.mkdirHere, absent] at refusal
              cases refusal
            · exact .inr (Path.leadsTrans (Path.parentLeads higher) leads)
          · exact ways part lower
        · exact ⟨rfl, .inl paved⟩
      · exact ⟨paved, rest⟩

theorem descendingStep {may d before now missing}
    (stands : Stands may d before now (.descending missing)) :
    Stands may d before (step d now (.descending missing)).1
      (step d now (.descending missing)).2 := by
  obtain ⟨paved, ways⟩ := stands
  cases missing with
  | nil => exact paved
  | cons dir missing =>
    have rest : ∀ part ∈ missing, OnWay d part := fun part h => ways part (List.mem_cons_of_mem _ h)
    simp only [step]
    split
    · rename_i made
      exact ⟨Tree.pavedMkdir paved (ways dir List.mem_cons_self) made, rest⟩
    · exact ⟨paved, rest⟩

theorem creatingStep {may d before now}
    (stands : Stands may d before now .creating) :
    Stands may d before (step d now .creating).1 (step d now .creating).2 := by
  simp only [step]
  split
  · exact ⟨rfl, .inl stands⟩
  · rename_i file after _ made
    obtain ⟨entered, named, free, rfl⟩ := Tree.createMade made
    refine ⟨now, [], ⟨stands, free, entered, named, ?_, ?_, rfl⟩, rfl⟩
    · rw [Tree.getAdd, if_pos rfl]
    · intro other apart
      rw [Tree.getAdd, if_neg apart]
  · exact ⟨rfl, .inl stands⟩

theorem fillingStep {may d before now file chunks}
    (stands : Stands may d before now (.filling file chunks)) :
    Stands may d before (step d now (.filling file chunks)).1
      (step d now (.filling file chunks)).2 := by
  obtain ⟨ground, bytes, drafted, whole⟩ := stands
  cases chunks with
  | nil =>
    have all : bytes = d.content := by simpa using whole
    exact ⟨ground, all ▸ drafted⟩
  | cons chunk chunks =>
    simp only [step]
    rw [Tree.appendMade drafted.draft]
    exact ⟨ground, _, draftedInsert drafted _ _, by simpa using whole⟩

theorem examiningStep {may d before now file}
    (stands : Stands may d before now (.examining file)) :
    Stands may d before (step d now (.examining file)).1
      (step d now (.examining file)).2 := by
  obtain ⟨ground, drafted⟩ := stands
  have seen := draftedMode drafted
  simp only [step]
  split
  · rename_i mode told
    rw [told] at seen
    exact ⟨ground, drafted, .inl seen⟩
  · rename_i told
    rw [told] at seen
    exact ⟨ground, _, drafted, .inl seen⟩

theorem replacingStep {may d before now file} (apart : d.Apart)
    (stands : Stands may d before now (.replacing file)) :
    Stands may d before (step d now (.replacing file)).1
      (step d now (.replacing file)).2 := by
  obtain ⟨ground, mode, drafted, bits⟩ := stands
  simp only [step]
  split
  · rename_i after moved
    obtain ⟨loc, placed⟩ := draftedRename apart drafted moved
    exact ⟨ground, loc, mode, placed, bits⟩
  · exact ⟨ground, _, mode, drafted, List.prefix_refl _⟩

theorem standsStep {may d before now} {w : Writing} (apart : d.Apart)
    (stands : Stands may d before now w) :
    Stands may d before (w.step d now).1 (w.step d now).2 := by
  cases w with
  | comparing =>
    have same : now = before := stands
    exact same ▸ comparingStep
  | climbing dir missing => exact climbingStep stands
  | confirming dir missing why =>
    obtain ⟨paved, ways⟩ := stands
    simp only [step]
    split
    · exact ⟨paved, ways⟩
    · exact ⟨rfl, .inl paved⟩
  | descending missing => exact descendingStep stands
  | creating => exact creatingStep stands
  | filling file chunks => exact fillingStep stands
  | syncing file => exact stands
  | examining file => exact examiningStep stands
  | permitting file mode =>
    obtain ⟨ground, drafted, bits⟩ := stands
    simp only [step]
    rw [Tree.setModeMade drafted.draft]
    exact ⟨ground, mode, draftedInsert drafted _ _, bits⟩
  | replacing file => exact replacingStep apart stands
  | discarding file why =>
    obtain ⟨ground, bytes, mode, drafted, _⟩ := stands
    exact ⟨rfl, .inl (draftedErase drafted)⟩
  | done result => exact stands

theorem standsRefused {may d before now} {w : Writing} (refusable : may w)
    (stands : Stands may d before now w) (reason : Errno) :
    Stands may d before now (w.refused d reason) := by
  cases w with
  | comparing =>
    have same : now = before := stands
    subst same
    simp only [refused]
    split
    · exact ⟨rfl, .inl (now.pavedRefl d.path)⟩
    · exact ⟨now.pavedRefl d.path, by simpa using onWayDirectory d⟩
  | climbing dir missing =>
    exact ⟨stands.1, fun part h => stands.2 part (List.mem_cons_of_mem _ h)⟩
  | confirming dir missing why => exact ⟨rfl, .inl stands.1⟩
  | descending missing =>
    cases missing with
    | nil => exact stands.1
    | cons dir missing =>
      exact ⟨stands.1, fun part h => stands.2 part (List.mem_cons_of_mem _ h)⟩
  | creating => exact ⟨rfl, .inl stands⟩
  | filling file chunks =>
    obtain ⟨ground, bytes, drafted, whole⟩ := stands
    exact ⟨ground, bytes, _, drafted, whole ▸ List.prefix_append _ _⟩
  | syncing file =>
    obtain ⟨ground, drafted⟩ := stands
    exact ⟨ground, _, _, drafted, List.prefix_refl _⟩
  | examining file =>
    obtain ⟨ground, drafted⟩ := stands
    exact ⟨ground, _, drafted, .inr ⟨⟨file, refusable⟩, rfl⟩⟩
  | permitting file mode =>
    obtain ⟨ground, drafted, _⟩ := stands
    exact ⟨ground, _, _, drafted, List.prefix_refl _⟩
  | replacing file =>
    obtain ⟨ground, mode, drafted, _⟩ := stands
    exact ⟨ground, _, mode, drafted, List.prefix_refl _⟩
  | discarding file why =>
    obtain ⟨ground, bytes, mode, drafted, part⟩ := stands
    exact ⟨rfl, .inr ⟨⟨file, why, refusable⟩, ground, file, bytes, mode, drafted, part⟩⟩
  | done result => exact stands

theorem reachedStands {may d before now w} (apart : d.Apart)
    (reached : Reaches may d before now w) : Stands may d before now w := by
  -- What stands is said of each state by itself, so a refusal carries it as well as a step.
  induction reached with
  | start => exact rfl
  | step so ih => exact standsStep apart ih
  | refuse so refusable why ih => exact standsRefused refusable ih why

theorem finishReached {d disk before now after result} {w : Writing}
    (so : Reaches disk.Refuses d before now w) (finished : finish d disk now w = (after, result)) :
    Reaches disk.Refuses d before after (.done result) := by
  fun_induction finish d disk now w with
  | case1 now w result' going =>
    cases finished
    cases w <;> cases going
    exact so
  | case2 now w going ih =>
    refine ih ?_ finished
    unfold next
    split
    · rename_i why refused
      exact so.refuse (by simp [Disk.Refuses, refused]) why
    · exact so.step

end Writing
end BuildProbe
