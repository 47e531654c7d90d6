import BuildProbe.Proofs.Artifact.Afoot
import BuildProbe.Proofs.Artifact.Race

/-!
Two writings to one path. Whoever reads the path sees what was there before until one of them has
moved its artifact into place, and from then on the artifact that was moved there last. A link that
is replaced may leave the path without an end, but then the other writing fails.
-/
namespace BuildProbe

open Text (Bytes)

namespace Race

open Writing

def renames (a b : Draft) (r : Race) : List Side → List Side
  | [] => []
  | s :: rest =>
    if (r.writing s).moves (s.pick a b) r.tree then s :: renames a b (r.step a b s) rest
    else renames a b (r.step a b s) rest

def visible (a b : Draft) (before : Except Refusal Bytes) : Option Side → Except Refusal Bytes
  | none => before
  | some s => .ok (s.pick a b).content

structure Rivals (a b : Draft) (p : Path) : Prop where
  strangers : Strangers a b
  proper : p.Proper
  path : ∀ s : Side, (s.pick a b).path = p

structure Contest (a b : Draft) (r : Race) : Prop where
  sound : r.tree.Sound
  unheard : ∀ s : Side, r.tree.Unheard (s.pick a b).name
  afoot : ∀ s : Side, Afoot (s.pick a b) r.tree (r.writing s)

variable {a b : Draft} {p : Path} {r : Race} {before : Except Refusal Bytes}

theorem stepContest (rivals : Rivals a b p) (contest : Contest a b r) (s : Side) :
    Stir (s.pick a b) r.tree (r.writing s) (r.step a b s).tree ((r.step a b s).writing s) ∧
      Contest a b (r.step a b s) := by
  have strangers := strangersSide rivals.strangers s
  obtain ⟨stir, afoot⟩ := stepAfoot strangers.left (rivals.path s ▸ rivals.proper)
    (contest.afoot s)
  obtain ⟨tree, own⟩ := stepOwn a b r s
  rw [← tree, ← own] at stir afoot
  refine ⟨stir, stirSound contest.sound stir, fun s' => stirUnheard (contest.unheard s') stir, ?_⟩
  intro s'
  rcases Side.otherwise (s := s) s' with rfl | rfl
  · exact afoot
  · rw [stepOther]
    exact afootBeside stir (Ne.symm strangers.names) strangers.rightStrange (contest.afoot s.other)

/- The path leads nowhere any more, and somebody has still to find that out. -/
structure Lost (p : Path) (r : Race) : Prop where
  halted : r.tree.slot p = .error .notADirectory
  going : ∃ s, (r.writing s).outcome? = none

structure Seen (a b : Draft) (p : Path) (before : Except Refusal Bytes) (r : Race)
    (latest : Option Side) : Prop where
  reads : r.tree.read p = visible a b before latest
  early : latest = none → ∀ s outcome, (r.writing s).outcome? = some outcome →
    outcome = .unchanged ∧ before = .ok (s.pick a b).content

theorem stepLost (rivals : Rivals a b p) (contest : Contest a b r) (lost : Lost p r) (s : Side) :
    Lost p (r.step a b s) := by
  obtain ⟨halted, s', going⟩ := lost
  obtain ⟨stir, _⟩ := stepContest rivals contest s
  have path := rivals.path s
  cases stir with
  | ripple ripple even rests =>
    refine ⟨?_, s', ?_⟩
    · exact path ▸ rippleHalted (contest.unheard s) (strangersSide rivals.strangers s).left ripple
        (path ▸ halted)
    · rcases Side.otherwise (s := s) s' with rfl | rfl
      · exact even.trans going
      · rw [stepOther]
        exact going
  | found same ends new outcome rests =>
    obtain ⟨plain, _⟩ := Tree.readEnd ends
    rw [path] at ends plain
    rw [Tree.readHalted (Tree.properNamed rivals.proper) plain halted] at ends
    cases ends
  | placed owns moved new outcome moves =>
    obtain ⟨_, loc, _, place, _⟩ := Tree.renameMoved moved
    rw [path, halted] at place
    cases place

theorem stepSeen (rivals : Rivals a b p) (fits : Tree.Fits p) (contest : Contest a b r)
    {latest : Option Side} (seen : Seen a b p before r latest) (s : Side) :
    Lost p (r.step a b s) ∨
      Seen a b p before (r.step a b s)
        (if (r.writing s).moves (s.pick a b) r.tree then some s else latest) := by
  obtain ⟨stir, next⟩ := stepContest rivals contest s
  have path := rivals.path s
  cases stir with
  | ripple ripple even rests =>
    right
    rw [rests, if_neg (by decide)]
    refine ⟨?_, fun untouched s' outcome ended => ?_⟩
    · rw [← seen.reads, ← path]
      exact rippleRead contest.sound (contest.unheard s) (strangersSide rivals.strangers s).left
        (path ▸ rivals.proper) (path ▸ fits) ripple
    · refine seen.early untouched s' outcome ?_
      rcases Side.otherwise (s := s) s' with rfl | rfl
      · exact even.symm.trans ended
      · rwa [stepOther] at ended
  | found same ends new outcome rests =>
    right
    rw [rests, if_neg (by decide)]
    refine ⟨same ▸ seen.reads, fun untouched s' outcome' ended => ?_⟩
    rcases Side.otherwise (s := s) s' with rfl | rfl
    · rw [outcome] at ended
      refine ⟨(Option.some.inj ended).symm, ?_⟩
      have reads := seen.reads
      rw [untouched] at reads
      exact reads.symm.trans (path ▸ ends)
    · rw [stepOther] at ended
      exact seen.early untouched _ outcome' ended
  | placed owns moved new outcome moves =>
    rw [moves, if_pos rfl]
    obtain ⟨loc, swapped⟩ := ownsSwapped owns moved
    have reads := swappedRead contest.sound swapped
    rw [path] at reads
    rcases reads with reads | ⟨halted, unreadable⟩
    · exact .inr ⟨reads, by rintro ⟨⟩⟩
    · -- Whoever is done already could read the path, so the other side is not done.
      left
      refine ⟨halted, s.other, ?_⟩
      rw [stepOther]
      cases ended : (r.writing s.other).outcome? with
      | none => rfl
      | some outcome' =>
        exfalso
        cases latest with
        | none =>
          obtain ⟨_, found⟩ := seen.early rfl _ _ ended
          exact unreadable _ (seen.reads.trans found)
        | some s' => exact unreadable _ seen.reads

theorem runContest (rivals : Rivals a b p) (contest : Contest a b r) (schedule : List Side) :
    Contest a b (r.run a b schedule) := by
  induction schedule generalizing r with
  | nil => exact contest
  | cons s schedule ih => exact ih (stepContest rivals contest s).2

theorem runLost (rivals : Rivals a b p) (contest : Contest a b r) (lost : Lost p r)
    (schedule : List Side) : Lost p (r.run a b schedule) := by
  induction schedule generalizing r with
  | nil => exact lost
  | cons s schedule ih =>
    exact ih (stepContest rivals contest s).2 (stepLost rivals contest lost s)

theorem runSeen (rivals : Rivals a b p) (fits : Tree.Fits p) (contest : Contest a b r)
    {latest : Option Side} (seen : Seen a b p before r latest) (schedule : List Side) :
    Lost p (r.run a b schedule) ∨
      Seen a b p before (r.run a b schedule) ((r.renames a b schedule).getLast?.or latest) := by
  induction schedule generalizing r latest with
  | nil => exact .inr seen
  | cons s schedule ih =>
    obtain ⟨_, next⟩ := stepContest rivals contest s
    rcases stepSeen rivals fits contest seen s with lost | seen
    · exact .inl (runLost rivals next lost schedule)
    · refine (ih next seen).imp_right fun seen => ?_
      have same : ∀ last : Option Side, last.or (some s) = (some (last.getD s)).or latest := by
        intro last
        cases last <;> rfl
      rw [renames]
      split
      · rename_i moves
        rw [if_pos moves, same] at seen
        rw [List.getLast?_cons]
        exact seen
      · rename_i rests
        rw [if_neg rests] at seen
        exact seen

theorem stepWritten (rivals : Rivals a b p) (contest : Contest a b r) (s s' : Side) :
    ((r.step a b s).writing s').outcome? = some .written ↔
      (r.writing s').outcome? = some .written ∨
        s' = s ∧ (r.writing s).moves (s.pick a b) r.tree = true := by
  obtain ⟨stir, _⟩ := stepContest rivals contest s
  rcases Side.otherwise (s := s) s' with rfl | rfl
  · cases stir with
    | ripple ripple even rests => simp [even, rests]
    | found same ends new outcome rests => simp [outcome, new, rests]
    | placed owns moved new outcome moves => simp [outcome, moves]
  · have apart : s.other ≠ s := by cases s <;> decide
    simp [stepOther, apart]

theorem runWritten (rivals : Rivals a b p) (contest : Contest a b r) (schedule : List Side)
    (s : Side) :
    ((r.run a b schedule).writing s).outcome? = some .written ↔
      (r.writing s).outcome? = some .written ∨ s ∈ r.renames a b schedule := by
  induction schedule generalizing r with
  | nil => simp [run, renames]
  | cons s' schedule ih =>
    have later := ih (stepContest rivals contest s').2
    rw [stepWritten rivals contest s' s] at later
    rw [renames]
    refine later.trans ?_
    split
    · rename_i moves
      simp only [moves, and_true, List.mem_cons, or_assoc]
    · rename_i rests
      simp only [Bool.not_eq_true] at rests
      simp [rests]

/- What a race for one path comes to when both sides have succeeded. -/
structure Together (a b : Draft) (t : Tree) (schedule : List Side) (outcome : Side → Outcome) :
    Prop where
  reads : ∀ early late, schedule = early ++ late →
    ((start t).run a b early).tree.read a.path =
      visible a b (t.read a.path) ((start t).renames a b early).getLast?
  written : ∀ s : Side, outcome s = .written ↔ s ∈ (start t).renames a b schedule
  unchanged : (∀ s, outcome s = .unchanged) → ∀ s : Side, t.read a.path = .ok (s.pick a b).content
  unused : ∀ s : Side, Unused ((start t).run a b schedule).tree (s.pick a b)

theorem startContest {t : Tree} (sound : t.Sound)
    (unheard : ∀ s : Side, t.Unheard (s.pick a b).name)
    (unused : ∀ s : Side, Unused t (s.pick a b)) : Contest a b (start t) := by
  refine ⟨sound, unheard, fun s => ⟨fun found named => absurd named (unused s found), ?_⟩⟩
  rw [startWriting]
  trivial

theorem startSeen (a b : Draft) (p : Path) (t : Tree) :
    Seen a b p (t.read p) (start t) none := by
  refine ⟨rfl, fun _ s outcome ended => ?_⟩
  rw [startWriting] at ended
  cases ended

theorem raceTogether {t : Tree} (rivals : Rivals a b p) (contest : Contest a b (start t))
    {schedule : List Side} {outcome : Side → Outcome}
    (ended : ((start t).run a b schedule).Ended fun s => .ok (outcome s)) :
    Together a b t schedule outcome := by
  have path : a.path = p := rivals.path .left
  have final := runContest rivals contest schedule
  have fits : Tree.Fits p := by
    have carries := (final.afoot .left).carries
    rw [ended .left] at carries
    exact path ▸ carries
  have seen : ∀ early late, schedule = early ++ late →
      Seen a b p (t.read p) ((start t).run a b early) ((start t).renames a b early).getLast? := by
    rintro early late rfl
    rcases runSeen rivals fits contest (startSeen a b p t) early with lost | seen
    · -- Whoever has lost is not done in the end.
      obtain ⟨_, s, going⟩ := runLost rivals (runContest rivals contest early) lost late
      rw [← runAppend, ended s] at going
      cases going
    · rwa [Option.or_none] at seen
  have written : ∀ s : Side, outcome s = .written ↔ s ∈ (start t).renames a b schedule := by
    intro s
    have moved := runWritten rivals contest schedule s
    rw [ended s, startWriting] at moved
    simpa [outcome?] using moved
  refine ⟨?_, written, ?_, ?_⟩
  · intro early late same
    rw [path]
    exact (seen early late same).reads
  · intro unchanged s
    have untouched : (start t).renames a b schedule = [] := by
      refine List.eq_nil_iff_forall_not_mem.mpr fun s moved => ?_
      have wrote := (written s).mpr moved
      rw [unchanged s] at wrote
      cases wrote
    have early := (seen schedule [] (List.append_nil _).symm).early (by rw [untouched]; rfl)
    rw [path]
    exact (early s (outcome s) (by rw [ended s]; rfl)).2
  · intro s loc e found named
    have own := (final.afoot s).hidden found named
    rw [ended s] at own
    cases own

end Race
end BuildProbe
