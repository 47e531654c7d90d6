import BuildProbe.Proofs.Pipeline.Ending
import BuildProbe.Proofs.Rehearsal.Shelf

/-!
Runs that share one pipeline. Any number of runs go on over the same services, a step of one after a
step of another in any order, and a runner that has been called returns at some later turn. When the
runner answers by the invocation and the run's own timeline alone, and no two runs keep their flags
at one path, each run comes to what it comes to alone, but for the readings of the clock, and leaves
at its path what it leaves there alone.
-/
namespace BuildProbe

def timeless (result : Except RunFailure Report) : Except RunFailure Report :=
  result.map fun report => { report with duration := 0 }

inductive Phase.Alike : Phase → Phase → Prop where
  | ready : Alike .ready .ready
  | begun (start start' : Int64) : Alike (.begun start) (.begun start')
  | probed (start start' : Int64) (captured : Captured) :
      Alike (.probed start captured) (.probed start' captured)
  | chosen (start start' : Int64) (flags : List Flag) :
      Alike (.chosen start flags) (.chosen start' flags)
  | persisted (start start' : Int64) (flags : List Flag) (outcome : Outcome) :
      Alike (.persisted start flags outcome) (.persisted start' flags outcome)
  | ended {result result' : Except RunFailure Report} (same : timeless result = timeless result') :
      Alike (.ended result) (.ended result')
  | hanging : Alike .hanging .hanging

namespace Run

def settled (r : Run) : Bool :=
  match r.phase with
  | .ended _ | .hanging => true
  | _ => false

end Run

/- A run among others. When its runner has been called and has not returned, it is fixed already how
the run will go on. -/
inductive Player where
  | going (run : Run)
  | waiting (answered : Run)

namespace Player

def run : Player → Run
  | going r => r
  | waiting answered => answered

def result? : Player → Option (Except RunFailure Report)
  | going r => r.result?
  | waiting _ => none

def settled : Player → Bool
  | going r => r.settled
  | waiting _ => false

def turn (services : Services σ) (request : Request) (timeline : Timeline) (p : Player)
    (state : σ) : Player × σ :=
  match p with
  | waiting answered => (going answered, state)
  | going r =>
    let (after, state) := r.advance services request timeline state
    match r.phase with
    | .begun _ => (waiting after, state)
    | _ => (going after, state)

end Player

structure Task where
  request : Request
  timeline : Timeline

def Task.far (services : Services σ) (task : Task) (state : σ) (n : Nat) : Run × σ :=
  Run.advances services task.request task.timeline n .start state

structure Ensemble (ι σ : Type) where
  players : ι → Player
  state : σ

namespace Ensemble

variable {ι : Type} [DecidableEq ι]

def start (state : σ) : Ensemble ι σ := ⟨fun _ => .going .start, state⟩

def turn (services : Services σ) (tasks : ι → Task) (e : Ensemble ι σ) (i : ι) : Ensemble ι σ :=
  let (player, state) := (e.players i).turn services (tasks i).request (tasks i).timeline e.state
  ⟨fun j => if j = i then player else e.players j, state⟩

def perform (services : Services σ) (tasks : ι → Task) (e : Ensemble ι σ) (schedule : List ι) :
    Ensemble ι σ :=
  schedule.foldl (turn services tasks) e

end Ensemble

/- In the states of which `holds` speaks, the runner answers by the invocation and the run's own
timeline alone, and the writer is a shelf that nothing else touches. -/
structure Services.Sharing (services : Services σ) (holds : σ → Prop)
    (play : Invocation → Timeline → Option (Except ProbeFailure Captured)) (shelf : σ → Shelf) :
    Prop where
  clock : ∀ {s}, holds s → holds (services.clock s).2 ∧ shelf (services.clock s).2 = shelf s
  probe : ∀ {s} i t, holds s → holds (services.probe i t s).state ∧
    shelf (services.probe i t s).state = shelf s ∧ (services.probe i t s).result = play i t
  persist : ∀ {s} p flags, holds s → holds (services.persist p flags s).state ∧
    shelf (services.persist p flags s).state = ((shelf s).persist p flags).2 ∧
    (services.persist p flags s).result = ((shelf s).persist p flags).1

structure Shelf.SameAt (p : Path) (s s' : Shelf) : Prop where
  failure : s.failure = s'.failure
  contents : s.contents? p = s'.contents? p

namespace Shelf

theorem SameAt.trans {p : Path} {s s' s'' : Shelf} (first : SameAt p s s')
    (second : SameAt p s' s'') : SameAt p s s'' :=
  ⟨first.failure.trans second.failure, first.contents.trans second.contents⟩

theorem persistSame {p : Path} {s s' : Shelf} (same : SameAt p s s') (flags : List Flag) :
    (s.persist p flags).1 = (s'.persist p flags).1 ∧
      SameAt p (s.persist p flags).2 (s'.persist p flags).2 := by
  refine ⟨?_, ?_, ?_⟩
  · rw [persistResult, persistResult, same.failure, same.contents]
  · rw [(s.persistCounts p flags).2, (s'.persistCounts p flags).2, same.failure]
  · rw [persistContents, persistContents, same.failure, same.contents]

theorem persistAside {p q : Path} (other : p.normal ≠ q.normal) (s : Shelf) (flags : List Flag) :
    SameAt q (s.persist p flags).2 s := by
  refine ⟨(s.persistCounts p flags).2, ?_⟩
  rw [persistContents]
  exact if_neg fun both => other both.2.symm

end Shelf

namespace Run

variable {services : Services σ} {holds : σ → Prop} {shelf : σ → Shelf}
  {play : Invocation → Timeline → Option (Except ProbeFailure Captured)}
  {request : Request} {timeline : Timeline}

theorem advanceShelf (sharing : services.Sharing holds play shelf) (r : Run) {s : σ}
    (good : holds s) :
    let state := (r.advance services request timeline s).2
    holds state ∧ (shelf state = shelf s ∨
      ∃ flags, shelf state = ((shelf s).persist request.output flags).2) := by
  obtain ⟨phase, told⟩ := r
  cases phase with
  | ready =>
    obtain ⟨after, same⟩ := sharing.clock good
    exact ⟨after, .inl same⟩
  | begun start =>
    obtain ⟨after, same, _⟩ := sharing.probe request.invocation timeline good
    simp only [advance]
    split <;> exact ⟨after, .inl same⟩
  | probed start captured =>
    simp only [advance]
    split <;> exact ⟨good, .inl rfl⟩
  | chosen start flags =>
    obtain ⟨after, kept, _⟩ := sharing.persist request.output flags good
    simp only [advance]
    split <;> exact ⟨after, .inr ⟨flags, kept⟩⟩
  | persisted start flags outcome =>
    obtain ⟨after, same⟩ := sharing.clock good
    exact ⟨after, .inl same⟩
  | ended result => exact ⟨good, .inl rfl⟩
  | hanging => exact ⟨good, .inl rfl⟩

theorem advanceAside (sharing : services.Sharing holds play shelf) (r : Run) {s : σ}
    (good : holds s) {q : Path} (other : request.output.normal ≠ q.normal) :
    Shelf.SameAt q (shelf (r.advance services request timeline s).2) (shelf s) := by
  rcases (r.advanceShelf sharing good).2 with same | ⟨flags, kept⟩
  · rw [same]
    exact ⟨rfl, rfl⟩
  · rw [kept]
    exact Shelf.persistAside other (shelf s) flags

theorem advanceAlike (sharing : services.Sharing holds play shelf) {r r' : Run} {s s' : σ}
    (good : holds s) (good' : holds s') (alike : r.phase.Alike r'.phase)
    (same : Shelf.SameAt request.output (shelf s) (shelf s')) :
    let after := r.advance services request timeline s
    let after' := r'.advance services request timeline s'
    after.1.phase.Alike after'.1.phase ∧
      Shelf.SameAt request.output (shelf after.2) (shelf after'.2) := by
  obtain ⟨phase, told⟩ := r
  obtain ⟨phase', told'⟩ := r'
  dsimp only at alike
  cases alike with
  | ready =>
    refine ⟨.begun _ _, ?_⟩
    simpa only [advance, sharing.clock good, sharing.clock good'] using same
  | begun start start' =>
    obtain ⟨_, kept, said⟩ := sharing.probe request.invocation timeline good
    obtain ⟨_, kept', said'⟩ := sharing.probe request.invocation timeline good'
    rw [← kept, ← kept'] at same
    simp only [advance, said, said']
    cases play request.invocation timeline with
    | none => exact ⟨.hanging, same⟩
    | some verdict =>
      cases verdict with
      | error cause => exact ⟨.ended rfl, same⟩
      | ok captured => exact ⟨.probed _ _ captured, same⟩
  | probed start start' captured =>
    simp only [advance]
    split
    · exact ⟨.ended rfl, same⟩
    · exact ⟨.chosen _ _ _, same⟩
  | chosen start start' flags =>
    obtain ⟨_, kept, said⟩ := sharing.persist request.output flags good
    obtain ⟨_, kept', said'⟩ := sharing.persist request.output flags good'
    obtain ⟨result, same⟩ := Shelf.persistSame same flags
    rw [← kept, ← kept'] at same
    simp only [advance, said, said', result]
    cases ((shelf s').persist request.output flags).1 with
    | error cause => exact ⟨.ended rfl, same⟩
    | ok outcome => exact ⟨.persisted _ _ _ _, same⟩
  | persisted start start' flags outcome =>
    refine ⟨.ended rfl, ?_⟩
    simpa only [advance, sharing.clock good, sharing.clock good'] using same
  | ended alike => exact ⟨.ended alike, same⟩
  | hanging => exact ⟨.hanging, same⟩

theorem alikeResult {r r' : Run} (alike : r.phase.Alike r'.phase) :
    r.settled = r'.settled ∧ r.result?.map timeless = r'.result?.map timeless := by
  unfold settled result?
  generalize r.phase = phase at alike
  generalize r'.phase = phase' at alike
  cases alike with
  | ended same => exact ⟨rfl, congrArg some same⟩
  | ready | begun | probed | chosen | persisted | hanging => exact ⟨rfl, rfl⟩

section Alone

variable (services request timeline)

theorem advanceSettled {r : Run} (settled : r.settled = true) (s : σ) :
    r.advance services request timeline s = (r, s) := by
  obtain ⟨phase, told⟩ := r
  cases phase with
  | ended result => rfl
  | hanging => rfl
  | ready | begun | probed | chosen | persisted => cases settled

theorem advancesSettled {r : Run} (settled : r.settled = true) (n : Nat) (s : σ) :
    advances services request timeline n r s = (r, s) := by
  induction n with
  | zero => rfl
  | succ n ih =>
    rw [advances, advanceSettled services request timeline settled]
    exact ih

theorem advancesMore (m n : Nat) (r : Run) (s : σ) :
    advances services request timeline (m + n) r s =
      advances services request timeline n (advances services request timeline m r s).1
        (advances services request timeline m r s).2 := by
  induction m generalizing r s with
  | zero => rw [Nat.zero_add]; rfl
  | succ m ih => rw [Nat.add_right_comm]; exact ih ..

theorem runSettles (s : σ) : (services.run request timeline s).1.settled = true := by
  rw [Services.runConcludes]
  unfold Services.conclude
  dsimp only
  split
  · rfl
  · rfl
  · split
    · rfl
    · split <;> rfl

theorem advancesRun {n : Nat} {s : σ}
    (settled : (advances services request timeline n .start s).1.settled = true) :
    advances services request timeline n .start s = services.run request timeline s := by
  have early := advancesMore services request timeline n 5 .start s
  have late := advancesMore services request timeline 5 n .start s
  rw [advancesSettled services request timeline settled] at early
  rw [← Services.run, advancesSettled services request timeline (runSettles ..)] at late
  rw [← Prod.eta (advances ..), ← early, Nat.add_comm, late]

end Alone

def left (r : Run) : Nat :=
  match r.phase with
  | .ready => 6
  | .begun _ => 5
  | .probed .. => 3
  | .chosen .. => 2
  | .persisted .. => 1
  | .ended _ | .hanging => 0

end Run

namespace Player

def left : Player → Nat
  | going r => r.left
  | waiting answered => answered.left + 1

theorem leftSettled {p : Player} (none : p.left = 0) : p.settled = true := by
  cases p with
  | waiting answered => cases none
  | going r =>
    obtain ⟨phase, told⟩ := r
    cases phase with
    | ended result => rfl
    | hanging => rfl
    | ready | begun | probed | chosen | persisted => cases none

variable (services : Services σ) (request : Request) (timeline : Timeline)

theorem turnRuns (p : Player) (s : σ) :
    let after := p.turn services request timeline s
    let stepped := p.run.advance services request timeline s
    after.1.run = p.run ∧ after.2 = s ∨ after.1.run = stepped.1 ∧ after.2 = stepped.2 := by
  cases p with
  | waiting answered => exact .inl ⟨rfl, rfl⟩
  | going r =>
    obtain ⟨phase, told⟩ := r
    cases phase <;> exact .inr ⟨rfl, rfl⟩

theorem turnLeft (p : Player) (s : σ) :
    (p.turn services request timeline s).1.left ≤ p.left - 1 := by
  cases p with
  | waiting answered => exact Nat.le_refl _
  | going r =>
    obtain ⟨phase, told⟩ := r
    cases phase with
    | ready => exact Nat.le_refl _
    | begun start =>
      simp only [turn, Run.advance]
      split <;> simp [left, Run.left, Run.reach]
    | probed start captured =>
      simp only [turn, Run.advance]
      split <;> simp [left, Run.left, Run.reach]
    | chosen start flags =>
      simp only [turn, Run.advance]
      split <;> simp [left, Run.left, Run.reach]
    | persisted start flags outcome => exact Nat.le_refl _
    | ended result => exact Nat.le_refl _
    | hanging => exact Nat.le_refl _

end Player

namespace Ensemble

variable {ι : Type} {services : Services σ} {holds : σ → Prop} {shelf : σ → Shelf}
  {play : Invocation → Timeline → Option (Except ProbeFailure Captured)} {tasks : ι → Task}
  {alone : ι → σ} {initial : Shelf} {e e' : Ensemble ι σ}

/- Every run has come to where it comes alone after some number of steps, and nothing else has
changed on the shelf. -/
structure Abreast (services : Services σ) (holds : σ → Prop) (shelf : σ → Shelf)
    (tasks : ι → Task) (alone : ι → σ) (initial : Shelf) (e : Ensemble ι σ) : Prop where
  good : holds e.state
  runs : ∀ i, ∃ n, holds ((tasks i).far services (alone i) n).2 ∧
    (e.players i).run.phase.Alike ((tasks i).far services (alone i) n).1.phase ∧
    (shelf e.state).SameAt (tasks i).request.output (shelf ((tasks i).far services (alone i) n).2)
  aside : ∀ p, (∀ i, (tasks i).request.output.normal ≠ p.normal) →
    (shelf e.state).SameAt p initial

namespace Abreast

theorem start {state : σ} (good : holds state) (goodAlone : ∀ i, holds (alone i))
    (same : ∀ i, shelf (alone i) = shelf state) :
    Abreast services holds shelf tasks alone (shelf state) (Ensemble.start state) := by
  refine ⟨good, fun i => ⟨0, goodAlone i, .ready, ?_⟩, fun _ _ => ⟨rfl, rfl⟩⟩
  have unmoved : ((tasks i).far services (alone i) 0).2 = alone i := rfl
  rw [unmoved, same i]
  exact ⟨rfl, rfl⟩

theorem settledAlone (abreast : Abreast services holds shelf tasks alone initial e) {i : ι}
    (settled : (e.players i).settled = true) :
    let ended := services.run (tasks i).request (tasks i).timeline (alone i)
    (e.players i).result?.map timeless = ended.1.result?.map timeless ∧
      (shelf e.state).SameAt (tasks i).request.output (shelf ended.2) := by
  obtain ⟨n, _, alike, same⟩ := abreast.runs i
  cases player : e.players i with
  | waiting answered =>
    rw [player] at settled
    cases settled
  | going r =>
    rw [player] at settled alike
    obtain ⟨settledAlike, resultAlike⟩ := Run.alikeResult alike
    have ends := Run.advancesRun services (tasks i).request (tasks i).timeline
      (settledAlike.symm.trans settled)
    rw [Task.far, ends] at resultAlike same
    exact ⟨resultAlike, same⟩

end Abreast

theorem settledContents (abreast : Abreast services holds shelf tasks alone initial e)
    (abreast' : Abreast services holds shelf tasks alone initial e')
    (settled : ∀ i, (e.players i).settled = true)
    (settled' : ∀ i, (e'.players i).settled = true) (p : Path) :
    (shelf e.state).contents? p = (shelf e'.state).contents? p := by
  by_cases claimed : ∃ i, (tasks i).request.output.normal = p.normal
  · obtain ⟨i, here⟩ := claimed
    have kept := (abreast.settledAlone (settled i)).2.contents
    have kept' := (abreast'.settledAlone (settled' i)).2.contents
    rw [← (shelf e.state).contentsAlike here, ← (shelf e'.state).contentsAlike here, kept, kept']
  · have nobody := not_exists.mp claimed
    rw [(abreast.aside p nobody).contents, (abreast'.aside p nobody).contents]

variable [DecidableEq ι]

section Turns

variable (services tasks) (e : Ensemble ι σ)

theorem turnOwn (i : ι) : (e.turn services tasks i).players i =
    ((e.players i).turn services (tasks i).request (tasks i).timeline e.state).1 := if_pos rfl

theorem turnOther {i j : ι} (other : j ≠ i) :
    (e.turn services tasks i).players j = e.players j := if_neg other

theorem turnRuns (i : ι) :
    let after := e.turn services tasks i
    let stepped := (e.players i).run.advance services (tasks i).request (tasks i).timeline e.state
    (after.players i).run = (e.players i).run ∧ after.state = e.state ∨
      (after.players i).run = stepped.1 ∧ after.state = stepped.2 := by
  intro after stepped
  have own : after.players i = _ := e.turnOwn services tasks i
  rw [own]
  exact (e.players i).turnRuns services (tasks i).request (tasks i).timeline e.state

theorem performLeft (schedule : List ι) (i : ι) :
    ((e.perform services tasks schedule).players i).left ≤
      (e.players i).left - schedule.count i := by
  induction schedule generalizing e with
  | nil => exact Nat.le_refl _
  | cons j schedule ih =>
    have rest := ih (e.turn services tasks j)
    refine Nat.le_trans rest ?_
    by_cases own : i = j
    · subst own
      have first := (e.players i).turnLeft services (tasks i).request (tasks i).timeline e.state
      rw [turnOwn, List.count_cons_self]
      omega
    · have uncounted : (j :: schedule).count i = schedule.count i :=
        List.count_cons_of_ne (Ne.symm own)
      exact Nat.le_of_eq (by rw [turnOther services tasks e own, uncounted])

end Turns

variable (tasks) in
theorem turnAside (sharing : services.Sharing holds play shelf)
    (good : holds e.state) (i : ι) :
    holds (e.turn services tasks i).state ∧
      ∀ q : Path, (tasks i).request.output.normal ≠ q.normal →
        (shelf (e.turn services tasks i).state).SameAt q (shelf e.state) := by
  rcases e.turnRuns services tasks i with ⟨_, idle⟩ | ⟨_, stepped⟩
  · rw [idle]
    exact ⟨good, fun q _ => ⟨rfl, rfl⟩⟩
  · rw [stepped]
    exact ⟨((e.players i).run.advanceShelf sharing good).1,
      fun q other => (e.players i).run.advanceAside sharing good other⟩

theorem Abreast.turn (sharing : services.Sharing holds play shelf)
    (apart : ∀ i j, i ≠ j → (tasks i).request.output.normal ≠ (tasks j).request.output.normal)
    (abreast : Abreast services holds shelf tasks alone initial e) (i : ι) :
    Abreast services holds shelf tasks alone initial (e.turn services tasks i) := by
  obtain ⟨good, elsewhere⟩ := turnAside tasks sharing abreast.good i
  refine ⟨good, fun j => ?_, fun p other => (elsewhere p (other i)).trans (abreast.aside p other)⟩
  obtain ⟨n, goodFar, alike, same⟩ := abreast.runs j
  -- Only the run whose turn it is takes a step alone; the others stay where they are.
  by_cases own : j = i
  · subst own
    rcases e.turnRuns services tasks j with ⟨run, idle⟩ | ⟨run, stepped⟩
    · refine ⟨n, goodFar, ?_⟩
      rw [run, idle]
      exact ⟨alike, same⟩
    · have further : (tasks j).far services (alone j) (n + 1) =
          ((tasks j).far services (alone j) n).1.advance services (tasks j).request
            (tasks j).timeline ((tasks j).far services (alone j) n).2 :=
        Run.advancesMore services (tasks j).request (tasks j).timeline n 1 .start (alone j)
      refine ⟨n + 1, ?_⟩
      rw [further, run, stepped]
      exact ⟨(Run.advanceShelf sharing _ goodFar).1,
        Run.advanceAlike sharing abreast.good goodFar alike same⟩
  · rw [turnOther services tasks e own]
    exact ⟨n, goodFar, alike, (elsewhere _ (apart i j (Ne.symm own))).trans same⟩

theorem Abreast.perform (sharing : services.Sharing holds play shelf)
    (apart : ∀ i j, i ≠ j → (tasks i).request.output.normal ≠ (tasks j).request.output.normal)
    (abreast : Abreast services holds shelf tasks alone initial e) (schedule : List ι) :
    Abreast services holds shelf tasks alone initial (e.perform services tasks schedule) := by
  induction schedule generalizing e with
  | nil => exact abreast
  | cons i schedule ih => exact ih (abreast.turn sharing apart i)

/- Runs that share one pipeline are settled after six turns each, in whatever order. Each comes to
what comes of it alone on a shelf that has the same, and leaves there what it leaves alone. -/
theorem runsApart {state : σ} (sharing : services.Sharing holds play shelf)
    (apart : ∀ i j, i ≠ j → (tasks i).request.output.normal ≠ (tasks j).request.output.normal)
    (good : holds state) (goodAlone : ∀ i, holds (alone i))
    (same : ∀ i, shelf (alone i) = shelf state) (schedule : List ι) :
    let e := (start state).perform services tasks schedule
    (∀ i, 6 ≤ schedule.count i → (e.players i).settled = true) ∧
      (∀ i, (e.players i).settled = true →
        let ended := services.run (tasks i).request (tasks i).timeline (alone i)
        (e.players i).result?.map timeless = ended.1.result?.map timeless ∧
          (shelf e.state).contents? (tasks i).request.output =
            (shelf ended.2).contents? (tasks i).request.output) ∧
      (∀ p, (∀ i, (tasks i).request.output.normal ≠ p.normal) →
        (shelf e.state).contents? p = (shelf state).contents? p) ∧
      ∀ schedule', let e' := (start state).perform services tasks schedule'
        (∀ i, (e.players i).settled = true) → (∀ i, (e'.players i).settled = true) →
          ∀ p, (shelf e.state).contents? p = (shelf e'.state).contents? p := by
  have abreast : ∀ turns : List ι, Abreast services holds shelf tasks alone (shelf state)
      ((start state).perform services tasks turns) :=
    (Abreast.start good goodAlone same).perform sharing apart
  refine ⟨fun i often => ?_, fun i settled => ?_, fun p nobody => ?_,
    fun schedule' settled settled' => ?_⟩
  · refine Player.leftSettled ?_
    have spent := performLeft services tasks (start state) schedule i
    have whole : ((start state : Ensemble ι σ).players i).left = 6 := rfl
    omega
  · obtain ⟨result, kept⟩ := (abreast schedule).settledAlone settled
    exact ⟨result, kept.contents⟩
  · exact ((abreast schedule).aside p nobody).contents
  · exact settledContents (abreast schedule) (abreast schedule') settled settled'

end Ensemble

theorem Rehearsal.servicesShare (part : Part) :
    services.Sharing (fun r => r.part = part)
      (fun invocation timeline => part.play invocation.program timeline) Rehearsal.shelf where
  clock good := ⟨good, rfl⟩
  probe _ _ good := ⟨good, rfl, by rw [← good]; rfl⟩
  persist _ _ good := ⟨good, rfl, rfl⟩

def duet : Bool → Task
  | false => ⟨⟨.new "probe", .ofText "out/a"⟩, .quiet⟩
  | true => ⟨⟨.new "probe", .ofText "out/./b"⟩, .single .running .signal⟩

def stage : Rehearsal := ⟨.prints "cargo:rustc-cfg=a\n", [], .empty none, ⟨0, 7⟩⟩

def soloStage (_ : Bool) : Rehearsal := { stage with clock := ⟨100, 1⟩ }

theorem duetApart :
    let turns := [true, false, false, true, true, false, true, false, true, false, true, false]
    let e := (Ensemble.start stage).perform Rehearsal.services duet turns
    (∀ i, (e.players i).settled = true) ∧
      (e.players false).result?.map timeless =
        some (.ok ⟨"probe", "out/a", ["--cfg=a"], .written, 0⟩) ∧
      (e.players true).result?.map timeless = some (.error (.probe (.cancelled "probe"))) ∧
      e.state.shelf.contents? (.ofText "out/a") = some "--cfg=a\n" ∧
      e.state.shelf.contents? (.ofText "out/b") = none ∧
      e.state.shelf.contents? (.ofText "out") = none := by
  intro turns e
  have apart : ∀ i j, i ≠ j →
      (duet i).request.output.normal ≠ (duet j).request.output.normal := by decide +kernel
  have parts : ∀ i, (soloStage i).part = stage.part := fun _ => rfl
  have alike : ∀ i, (soloStage i).shelf = stage.shelf := fun _ => rfl
  obtain ⟨often, ended, aside, _⟩ := Ensemble.runsApart (Rehearsal.servicesShare stage.part) apart
    rfl parts alike turns
  have settled : ∀ i, (e.players i).settled = true := fun i => often i (by cases i <;> decide)
  refine ⟨settled, (ended false (settled false)).1.trans ?_, (ended true (settled true)).1.trans ?_,
    (ended false (settled false)).2.trans ?_, (ended true (settled true)).2.trans ?_,
    (aside (.ofText "out") ?_).trans ?_⟩
  · rfl
  · rfl
  · decide +kernel
  · decide +kernel
  · decide +kernel
  · decide +kernel

end BuildProbe
