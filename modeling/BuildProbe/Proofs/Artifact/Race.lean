import BuildProbe.Proofs.Artifact.Stakes

/-!
Two writings at the same time: their steps happen one after another, in any order. When their files
are different ones, and neither path leads through the other's file, each comes to the fate that it
has alone, and what is in the tree afterwards does not depend on the order.
-/
namespace BuildProbe

inductive Side where
  | left
  | right
  deriving DecidableEq, Repr

namespace Side

def other : Side → Side
  | .left => .right
  | .right => .left

def pick (left right : α) : Side → α
  | .left => left
  | .right => right

theorem otherwise {s : Side} (s' : Side) : s' = s ∨ s' = s.other := by
  cases s <;> cases s' <;> simp [other]

theorem otherOther (s : Side) : s.other.other = s := by
  cases s <;> rfl

theorem pickMap (f : α → β) (left right : α) (s : Side) :
    s.pick (f left) (f right) = f (s.pick left right) := by
  cases s <;> rfl

theorem pickBoth {P : α → Prop} {left right : α} (first : P left) (second : P right) (s : Side) :
    P (s.pick left right) := by
  cases s with
  | left => exact first
  | right => exact second

theorem pickMember (left right : α) (s : Side) : s.pick left right ∈ [left, right] := by
  cases s <;> simp [pick]

theorem memberPick {left right x : α} (member : x ∈ [left, right]) :
    ∃ s : Side, x = s.pick left right := by
  rcases List.mem_cons.mp member with rfl | last
  · exact ⟨.left, rfl⟩
  · exact ⟨.right, List.mem_singleton.mp last⟩

end Side

structure Race where
  tree : Tree
  left : Writing
  right : Writing

namespace Race

def start (t : Tree) : Race := ⟨t, .comparing, .comparing⟩

def step (a b : Draft) (r : Race) : Side → Race
  | .left => ⟨(r.left.step a r.tree).1, (r.left.step a r.tree).2, r.right⟩
  | .right => ⟨(r.right.step b r.tree).1, r.left, (r.right.step b r.tree).2⟩

def run (a b : Draft) (r : Race) (schedule : List Side) : Race := schedule.foldl (step a b) r

def writing (r : Race) (s : Side) : Writing := s.pick r.left r.right

theorem stepOwn (a b : Draft) (r : Race) (s : Side) :
    (r.step a b s).tree = ((r.writing s).step (s.pick a b) r.tree).1 ∧
      (r.step a b s).writing s = ((r.writing s).step (s.pick a b) r.tree).2 := by
  cases s <;> exact ⟨rfl, rfl⟩

theorem stepOther (a b : Draft) (r : Race) (s : Side) :
    (r.step a b s).writing s.other = r.writing s.other := by
  cases s <;> rfl

end Race

namespace Writing

theorem strangersSwap {d e : Draft} (strangers : Strangers d e) : Strangers e d :=
  ⟨strangers.right, strangers.left, Ne.symm strangers.names, strangers.rightStrange,
    strangers.leftStrange⟩

theorem strangersSide {a b : Draft} (strangers : Strangers a b) (s : Side) :
    Strangers (s.pick a b) (s.other.pick a b) := by
  cases s with
  | left => exact strangers
  | right => exact strangersSwap strangers

end Writing

namespace Race

open Writing

structure Racing (a b : Stake) (before : Tree) (r : Race) : Prop where
  strangers : Strangers a.draft b.draft
  underway : ∀ s : Side,
    Underway (s.pick a b).draft (s.pick a b).fate (s.pick a b).bits r.tree (r.writing s)
  apart : ∀ s : Side, r.tree.Apart (s.pick a b).draft.path (s.other.pick a b).draft.path
  present : r.tree.present = before.present
  known : ∀ {id}, before.Known id → r.tree.Known id
  promised : ∀ {directory names}, before.Known directory →
    (∀ s : Side, (s.pick a b).draft.name ∉ names) →
      r.tree.promised ([a, b].map (·.pledge r.tree)) directory names =
        before.promised ([a, b].map (·.pledge before)) directory names

variable {a b : Stake} {before : Tree} {r : Race}

theorem stepRacing (racing : Racing a b before r) (s : Side) :
    Racing a b before (r.step a.draft b.draft s) := by
  obtain ⟨strangers, underway, apart, present, known, promised⟩ := racing
  have strange : Strangers (s.pick a b).draft (s.other.pick a b).draft := by
    simpa only [Side.pickMap] using strangersSide strangers s
  obtain ⟨stays, deed⟩ := stepUnderway strange.left (underway s)
  obtain ⟨tree, own⟩ := stepOwn a.draft b.draft r s
  rw [Side.pickMap Stake.draft a b] at tree own
  rw [← tree] at deed
  rw [← tree, ← own] at stays
  have aside := asideOf strange (underway s) (underway s.other) (apart s)
  have party : Party (s.pick a b).draft r.tree (s.pick a b).draft.path :=
    .own rfl strange.left (underway s).settled (underway s).straight
  have later := deedApart deed party (.aside aside) (apart s)
  have others : ∀ x ∈ [a, b], x = s.pick a b ∨ Aside (s.pick a b).draft r.tree x.draft.path := by
    intro x member
    obtain ⟨s', rfl⟩ := Side.memberPick member
    rcases Side.otherwise (s := s) s' with rfl | rfl
    · exact .inl rfl
    · exact .inr aside
  refine ⟨strangers, fun s' => ?_, fun s' => ?_, (deedPresent deed).trans present,
    fun old => deedKnown deed (known old), fun old plain => ?_⟩
  · rcases Side.otherwise (s := s) s' with rfl | rfl
    · exact stays
    · rw [stepOther]
      exact underwayBeside deed aside strange (underway s.other)
  · rcases Side.otherwise (s := s) s' with rfl | rfl
    · exact later
    · rw [Side.otherOther]
      exact Tree.apartSwap later
  · exact (deedPromised deed (Side.pickMember a b s) strange.left (underway s).settled
      (underway s).straight others (known old) (plain s)).trans (promised old plain)

theorem runRacing (racing : Racing a b before r) (schedule : List Side) :
    Racing a b before (r.run a.draft b.draft schedule) := by
  induction schedule generalizing r with
  | nil => exact racing
  | cons side schedule ih => exact ih (stepRacing racing side)

def Unused (t : Tree) (d : Draft) : Prop := ∀ {loc e}, t.get? loc = some e → loc.name ≠ d.name

def stake (t : Tree) (d : Draft) : Stake := ⟨d, t.fate d, t.bits d.path⟩

theorem startRacing {t : Tree} {a b : Draft} (settled : t.Settled) (strangers : Strangers a b)
    (straight : ∀ s : Side, t.Straight (s.pick a b).path) (apart : t.Apart a.path b.path)
    (unused : ∀ s : Side, Unused t (s.pick a b)) :
    Racing (stake t a) (stake t b) t (start t) := by
  refine ⟨strangers, fun s => ?_, fun s => ?_, rfl, fun known => known, fun _ _ => rfl⟩
  · have begins := startUnderway settled (straight s) (unused s)
    cases s <;> exact begins
  · cases s with
    | left => exact apart
    | right => exact Tree.apartSwap apart

def Ended (r : Race) (result : Side → Except WriteFailure Outcome) : Prop :=
  ∀ s, r.writing s = .done (result s)

section

variable {result : Side → Except WriteFailure Outcome}

theorem endSight (racing : Racing a b before r) (ended : r.Ended result) {directory : Nat}
    {names : List String} (known : before.Known directory)
    (plain : ∀ s : Side, (s.pick a b).draft.name ∉ names) :
    r.tree.sight directory names =
      before.promised ([a, b].map (·.pledge before)) directory names := by
  rw [← racing.promised known plain]
  refine (Tree.promisedKept ?_ directory names).symm
  intro g member
  obtain ⟨x, staked, rfl⟩ := List.mem_map.mp member
  obtain ⟨s, rfl⟩ := Side.memberPick staked
  exact Stake.pledgeKept (ended s ▸ (racing.underway s).stage)

theorem endUnused (racing : Racing a b before r) (ended : r.Ended result) (s : Side) :
    Unused r.tree (s.pick a b).draft := by
  intro loc e found named
  have own := (racing.underway s).hidden found named
  rw [ended s] at own
  cases own

theorem endAlike (racing : Racing a b before r) {r' : Race} (racing' : Racing a b before r')
    {result' : Side → Except WriteFailure Outcome} (ended : r.Ended result)
    (ended' : r'.Ended result') {directory : Nat} (known : before.Known directory)
    (names : List String) : r.tree.sight directory names = r'.tree.sight directory names := by
  by_cases hidden : ∃ s : Side, (s.pick a b).draft.name ∈ names
  · obtain ⟨s, member⟩ := hidden
    rw [Tree.sightHidden (endUnused racing ended s) member,
      Tree.sightHidden (endUnused racing' ended' s) member]
  · have plain : ∀ s : Side, (s.pick a b).draft.name ∉ names :=
      fun s member => hidden ⟨s, member⟩
    rw [endSight racing ended known plain, endSight racing' ended' known plain]

end

theorem runAppend (a b : Draft) (r : Race) (first second : List Side) :
    r.run a b (first ++ second) = (r.run a b first).run a b second :=
  List.foldl_append

theorem runSide (a b : Draft) (r : Race) (s : Side) :
    ∃ n, (r.run a b (List.replicate n s)).tree = (finish (s.pick a b) .sound r.tree (r.writing s)).1 ∧
      (r.run a b (List.replicate n s)).writing s =
        .done (finish (s.pick a b) .sound r.tree (r.writing s)).2 ∧
      (r.run a b (List.replicate n s)).writing s.other = r.writing s.other := by
  generalize same : r.tree = t
  generalize same' : r.writing s = w
  fun_induction finish (s.pick a b) .sound t w generalizing r with
  | case1 t w result ended =>
    refine ⟨0, same, ?_, rfl⟩
    cases w <;> cases ended
    exact same'
  | case2 t w going ih =>
    obtain ⟨tree, own⟩ := stepOwn a b r s
    rw [same, same'] at tree own
    obtain ⟨n, after, done, still⟩ := ih (r.step a b s) tree own
    exact ⟨n + 1, after, done, still.trans (stepOther a b r s)⟩

def inTurn (t : Tree) (first second : Draft) : Tree :=
  (second.write .sound (first.write .sound t).1).1

theorem startWriting (t : Tree) (s : Side) : (start t).writing s = .comparing := by
  cases s <;> rfl

theorem runInTurn (a b : Draft) (t : Tree) (s : Side) :
    ∃ schedule result, ((start t).run a b schedule).tree =
        inTurn t (s.pick a b) (s.other.pick a b) ∧ ((start t).run a b schedule).Ended result := by
  obtain ⟨n, first, done, waits⟩ := runSide a b (start t) s
  obtain ⟨m, second, done', stays⟩ := runSide a b ((start t).run a b (List.replicate n s)) s.other
  rw [Side.otherOther] at stays
  rw [waits, startWriting, first, startWriting] at second done'
  rw [← runAppend] at second done' stays
  have each : ∀ s', ∃ result, ((start t).run a b
      (List.replicate n s ++ List.replicate m s.other)).writing s' = .done result := by
    intro s'
    rcases Side.otherwise (s := s) s' with rfl | rfl
    · exact ⟨_, stays.trans done⟩
    · exact ⟨_, done'⟩
  obtain ⟨result, ended⟩ := Classical.skolem.mp each
  exact ⟨_, result, second, ended⟩

/- What a race of separate files comes to when both sides are done. -/
structure Separately (a b : Draft) (t : Tree) (r : Race)
    (result : Side → Except WriteFailure Outcome) : Prop where
  alone : ∀ s : Side, result s = ((s.pick a b).write .sound t).2
  present : r.tree.present = t.present
  sequel : ∀ (s : Side) (directory : Nat) (names : List String), t.Known directory →
    r.tree.sight directory names =
      (inTurn t (s.pick a b) (s.other.pick a b)).sight directory names
  unused : ∀ s : Side, Unused r.tree (s.pick a b)

theorem raceSeparately {t : Tree} {a b : Draft} (settled : t.Settled) (strangers : Strangers a b)
    (straight : ∀ s : Side, t.Straight (s.pick a b).path) (apart : t.Apart a.path b.path)
    (unused : ∀ s : Side, Unused t (s.pick a b)) {schedule : List Side}
    {result : Side → Except WriteFailure Outcome}
    (ended : ((start t).run a b schedule).Ended result) :
    Separately a b t ((start t).run a b schedule) result := by
  have starts := startRacing settled strangers straight apart unused
  have races : ∀ schedule, Racing (stake t a) (stake t b) t ((start t).run a b schedule) :=
    runRacing starts
  have draft : ∀ s : Side, (s.pick (stake t a) (stake t b)).draft = s.pick a b := by
    intro s
    cases s <;> rfl
  refine ⟨fun s => ?_, (races schedule).present, fun s directory names known => ?_, fun s => ?_⟩
  · have underway := (races schedule).underway s
    have begins := starts.underway s
    rw [ended s, draft] at underway
    rw [startWriting, draft] at begins
    exact underway.stage.1.trans
      (finishUnderway (strangersSide strangers s).left begins).2.symm
  · obtain ⟨firstly, result', tree, ended'⟩ := runInTurn a b t s
    rw [← tree]
    exact endAlike (races schedule) (races firstly) ended ended' known names
  · exact draft s ▸ endUnused (races schedule) ended s

end Race
end BuildProbe
