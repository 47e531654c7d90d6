import BuildProbe.Proofs.Pipeline.Readings
import BuildProbe.Proofs.Rehearsal.Shelf

/-!
The books of a rehearsal. From the list of its runs, each with the part that was played, what was
asked for, what was kept at the path before and what came of it, everything on record can be told:
the invocations received, the attempts to keep something, what is kept at every path, and how often
the clock has been read. The runs may be of any kind and in any order, with the parts recast in
between.
-/
namespace BuildProbe

namespace Clock

def after : Nat → Clock → Clock
  | 0, c => c
  | n + 1, c => after n c.read.2

theorem afterRead (n : Nat) (c : Clock) : (after n c).read.2 = after (n + 1) c := by
  induction n generalizing c with
  | zero => rfl
  | succ n ih => exact ih c.read.2

theorem afterStep (n : Nat) (c : Clock) : (after n c).step = c.step := by
  induction n generalizing c with
  | zero => rfl
  | succ n ih => exact ih c.read.2

theorem readingsNext (n : Nat) (c : Clock) :
    readings (n + 1) c = readings n c ++ [(after n c).now] := by
  induction n generalizing c with
  | zero => rfl
  | succ n ih =>
    rw [readings, ih c.read.2]
    rfl

end Clock

def Part.stdout : Part → String
  | .prints stdout => stdout
  | _ => ""

namespace Rehearsal

structure Performance where
  part : Part
  request : Request
  plan : Plan
  before : Option String
  result : Option (Except RunFailure Report)
  readings : List Int64

namespace Performance

def report? (q : Performance) : Option Report :=
  match q.result with
  | some (.ok report) => some report
  | _ => none

def cancelled (q : Performance) : Bool := (q.plan.timeline q.part.stuck?).heardBy .writing

def handsOn (q : Performance) : Bool :=
  match q.part with
  | .prints _ => !q.cancelled
  | _ => false

def artifact (q : Performance) : String := Artifact.render (Directive.flags q.part.stdout)

def keptAt (q : Performance) (p : Path) : Bool :=
  q.report?.isSome && q.request.output.normal = p.normal

end Performance

def perform (r : Rehearsal) (request : Request) (plan : Plan) : Performance :=
  let timeline := plan.timeline r.part.stuck?
  ⟨r.part, request, plan, r.shelf.contents? request.output,
    (services.run request timeline r).1.result?, services.readings request timeline r⟩

def performance? (r : Rehearsal) : Step → Option Performance
  | .run request plan => some (r.perform request plan)
  | .recast _ | .contents _ | .invocations => none

def after (r : Rehearsal) : List Step → Rehearsal
  | [] => r
  | s :: steps => (r.answer s).2.after steps

def history (r : Rehearsal) : List Step → List Performance
  | [] => []
  | s :: steps => (r.performance? s).toList ++ (r.answer s).2.history steps

def opened (r : Rehearsal) (request : Request) : Rehearsal :=
  { r with clock := r.clock.read.2, received := r.received ++ [request.invocation] }

def delivered (r : Rehearsal) (q : Performance) : Rehearsal :=
  { r.opened q.request with
    shelf := (r.shelf.persist q.request.output (Directive.flags q.part.stdout)).2 }

/- The three ways in which a run can leave the books. -/
inductive Booked (r : Rehearsal) (q : Performance) : Rehearsal → Prop where
  | silent (idle : q.handsOn = false) (fails : q.report? = none) :
      Booked r q (r.opened q.request)
  | refused (active : q.handsOn = true) (failing : r.shelf.failure ≠ none)
      (fails : q.report? = none) : Booked r q (r.delivered q)
  | kept {report : Report} (active : q.handsOn = true) (working : r.shelf.failure = none)
      (returned : q.report? = some report)
      (outcome : (r.shelf.persist q.request.output (Directive.flags q.part.stdout)).1 =
        .ok report.outcome)
      (duration : report.duration = r.clock.step) :
      Booked r q { r.delivered q with clock := r.clock.read.2.read.2 }

theorem heardOnce {plan : Plan} {part : Part} (ends : part.stuck? = none) :
    (plan.timeline part.stuck?).heardBy .returned = (plan.timeline part.stuck?).heardBy .writing := by
  rw [ends]
  cases plan with
  | never => rfl
  | before a => cases a <;> rfl
  | whenBlocked a => rfl

def played (r : Rehearsal) (request : Request) (plan : Plan) : Services.Answer Rehearsal :=
  ⟨r.part.play request.invocation.program (plan.timeline r.part.stuck?), [], r.opened request⟩

theorem playedSaid {r : Rehearsal} {request : Request} {plan : Plan} {captured : Captured} :
    (r.played request plan).result = some (.ok captured) ↔
      r.part = .prints captured.stdout ∧ captured = ⟨captured.stdout, "", 0⟩ := by
  unfold played
  cases part : r.part with
  | prints stdout =>
    constructor
    · rintro said
      cases said
      exact ⟨rfl, rfl⟩
    · rintro ⟨same, whole⟩
      cases same
      rw [whole]
      rfl
  | exits status => simp [Part.play]
  | failsToStart reason => simp [Part.play]
  | hangs =>
    simp only [Part.play]
    split <;> simp

theorem handsOnPlayed (r : Rehearsal) (request : Request) (plan : Plan) :
    (r.perform request plan).handsOn = true ↔
      (∃ captured, (r.played request plan).result = some (.ok captured)) ∧
        (plan.timeline r.part.stuck?).heardBy .returned = false := by
  have active : (r.perform request plan).handsOn = match r.part with
    | .prints _ => !(plan.timeline r.part.stuck?).heardBy .writing
    | _ => false := rfl
  rw [active]
  simp only [playedSaid]
  cases part : r.part with
  | prints stdout =>
    have once : (plan.timeline (Part.prints stdout).stuck?).heardBy .returned =
      (plan.timeline (Part.prints stdout).stuck?).heardBy .writing := heardOnce rfl
    rw [once]
    simp only [Bool.not_eq_true', iff_and_self]
    exact fun _ => ⟨⟨stdout, "", 0⟩, rfl, rfl⟩
  | exits status => simp
  | failsToStart reason => simp
  | hangs => simp

theorem playedDelivers {r : Rehearsal} {request : Request} {plan : Plan} {captured : Captured}
    (said : (r.played request plan).result = some (.ok captured)) :
    services.delivery request (r.played request plan) captured =
      ⟨(r.shelf.persist request.output (Directive.flags r.part.stdout)).1, [],
        r.delivered (r.perform request plan)⟩ := by
  have stdout : r.part.stdout = captured.stdout := by rw [(playedSaid.mp said).1]; rfl
  have part : (r.perform request plan).part = r.part := rfl
  rw [delivered, part, stdout]
  rfl

theorem performBooked (r : Rehearsal) (request : Request) (plan : Plan) :
    Booked r (r.perform request plan) (r.answer (.run request plan)).2 := by
  have ends : services.Ends request r.clock.now ((plan.timeline r.part.stuck?).heardBy .returned)
      (r.played request plan) (r.perform request plan).result (r.answer (.run request plan)).2 :=
    services.runEnds request (plan.timeline r.part.stuck?) r
  have active := r.handsOnPlayed request plan
  generalize result : (r.perform request plan).result = ended at ends
  generalize (r.answer (.run request plan)).2 = after at ends ⊢
  cases ends with
  | hung silent =>
    exact .silent (by simpa [silent] using active) (by rw [Performance.report?, result])
  | failed said =>
    exact .silent (by simpa [said] using active) (by rw [Performance.report?, result])
  | cancelled said given =>
    exact .silent (by simpa [given] using active) (by rw [Performance.report?, result])
  | @unwritten captured cause said missing refused =>
    have delivers := playedDelivers said
    rw [delivers] at refused ⊢
    refine .refused (active.mpr ⟨⟨captured, said⟩, missing⟩) ?_
      (by rw [Performance.report?, result])
    intro working
    obtain ⟨outcome, kept⟩ := (r.shelf.persistWorks request.output _).mpr working
    exact nomatch kept.symm.trans refused
  | @reported captured outcome said missing kept =>
    have delivers := playedDelivers said
    have duration : (services.account request r.clock.now (r.played request plan) captured
        outcome).duration = r.clock.step := by
      have later : r.clock.now + r.clock.step - r.clock.now = r.clock.step := by
        rw [Int64.add_comm, Int64.add_sub_cancel]
      rw [Services.account, delivers]
      exact later
    rw [delivers] at kept ⊢
    have working := (r.shelf.persistWorks request.output _).mp ⟨outcome, kept⟩
    have returned : (r.perform request plan).report? = some
        (services.account request r.clock.now (r.played request plan) captured outcome) := by
      rw [Performance.report?, result]
    exact .kept (active.mpr ⟨⟨captured, said⟩, missing⟩) working returned kept duration

theorem performReadings (r : Rehearsal) (request : Request) (plan : Plan) :
    (r.perform request plan).readings = match (r.perform request plan).report? with
      | some report => [r.clock.now, r.clock.now + report.duration]
      | none => [r.clock.now] := by
  refine (Services.runReadings (plan.timeline r.part.stuck?) r).trans ?_
  unfold Performance.report? perform
  dsimp only
  generalize (services.run request (plan.timeline r.part.stuck?) r).1.result? = result
  cases result with
  | none => rfl
  | some verdict => cases verdict <;> rfl

def lastAt (runs : List Performance) (p : Path) : Option Performance :=
  (runs.filter (·.keptAt p)).getLast?

def readingsFor (runs : List Performance) : Nat := runs.length + runs.countP (·.report?.isSome)

/- What is on record after these runs. -/
structure Books (clock : Clock) (runs : List Performance) (r : Rehearsal) : Prop where
  received : r.received = runs.map (·.request.invocation)
  attempts : r.shelf.attempts = runs.countP Performance.handsOn
  contents : ∀ p, r.shelf.contents? p = (lastAt runs p).map Performance.artifact
  reports : ∀ q ∈ runs, ∀ report, q.report? = some report →
    (report.outcome = .unchanged ↔ q.before = some q.artifact) ∧ report.duration = clock.step
  readings : runs.flatMap (·.readings) = clock.readings (readingsFor runs)
  clock : r.clock = clock.after (readingsFor runs)

theorem lastAtNext (runs : List Performance) (q : Performance) (p : Path) :
    lastAt (runs ++ [q]) p = if q.keptAt p then some q else lastAt runs p := by
  unfold lastAt
  rw [List.filter_append, List.getLast?_append]
  by_cases kept : q.keptAt p <;> simp [kept]

theorem readingsForNext (runs : List Performance) (q : Performance) :
    readingsFor (runs ++ [q]) = readingsFor runs + if q.report?.isSome then 2 else 1 := by
  unfold readingsFor
  rw [List.length_append, List.countP_append, List.countP_singleton, List.length_singleton]
  split <;> omega

namespace Books

variable {clock : Clock} {runs : List Performance} {r after : Rehearsal} {q : Performance}

theorem unreported (books : Books clock runs r) (fails : q.report? = none)
    (read : q.readings = [r.clock.now])
    (received : after.received = r.received ++ [q.request.invocation])
    (attempts : after.shelf.attempts = r.shelf.attempts + if q.handsOn then 1 else 0)
    (contents : ∀ p, after.shelf.contents? p = r.shelf.contents? p)
    (ticked : after.clock = r.clock.read.2) : Books clock (runs ++ [q]) after := by
  have nowhere : ∀ p, q.keptAt p = false := fun p => by simp [Performance.keptAt, fails]
  have readings := readingsForNext runs q
  rw [fails] at readings
  refine ⟨?_, ?_, fun p => ?_, ?_, ?_, ?_⟩
  · rw [received, books.received, List.map_append, List.map_singleton]
  · rw [attempts, books.attempts, List.countP_append, List.countP_singleton]
  · rw [contents, lastAtNext, nowhere p]
    exact books.contents p
  · intro q' member report returned
    rcases List.mem_append.mp member with old | new
    · exact books.reports q' old report returned
    · rw [List.mem_singleton.mp new, fails] at returned
      cases returned
  · rw [readings, List.flatMap_append, books.readings, List.flatMap_singleton, read, books.clock]
    exact (Clock.readingsNext ..).symm
  · rw [readings, ticked, books.clock]
    exact Clock.afterRead ..

theorem reported (books : Books clock runs r) {report : Report} (returned : q.report? = some report)
    (read : q.readings = [r.clock.now, r.clock.now + report.duration])
    (received : after.received = r.received ++ [q.request.invocation])
    (attempts : after.shelf.attempts = r.shelf.attempts + if q.handsOn then 1 else 0)
    (contents : ∀ p, after.shelf.contents? p =
      if p.normal = q.request.output.normal then some q.artifact else r.shelf.contents? p)
    (unchanged : report.outcome = .unchanged ↔ q.before = some q.artifact)
    (duration : report.duration = r.clock.step)
    (ticked : after.clock = r.clock.read.2.read.2) : Books clock (runs ++ [q]) after := by
  have step : r.clock.step = clock.step := by rw [books.clock, Clock.afterStep]
  have readings := readingsForNext runs q
  rw [returned] at readings
  refine ⟨?_, ?_, fun p => ?_, ?_, ?_, ?_⟩
  · rw [received, books.received, List.map_append, List.map_singleton]
  · rw [attempts, books.attempts, List.countP_append, List.countP_singleton]
  · have here : q.keptAt p = decide (p.normal = q.request.output.normal) := by
      simp [Performance.keptAt, returned, eq_comm]
    rw [contents, lastAtNext, books.contents, here]
    by_cases alike : p.normal = q.request.output.normal <;> simp [alike]
  · intro q' member report' returned'
    rcases List.mem_append.mp member with old | new
    · exact books.reports q' old report' returned'
    · rw [List.mem_singleton.mp new] at returned' ⊢
      cases returned.symm.trans returned'
      exact ⟨unchanged, duration.trans step⟩
  · rw [readings, List.flatMap_append, books.readings, List.flatMap_singleton, read, duration,
      books.clock]
    have first := Clock.readingsNext (readingsFor runs) clock
    have second := Clock.readingsNext (readingsFor runs + 1) clock
    rw [first, ← Clock.afterRead, List.append_assoc] at second
    exact second.symm
  · rw [readings, ticked, books.clock, Clock.afterRead]
    exact Clock.afterRead ..

end Books

theorem performBooks {clock : Clock} {runs : List Performance} {r : Rehearsal}
    (books : Books clock runs r) (request : Request) (plan : Plan) :
    Books clock (runs ++ [r.perform request plan]) (r.answer (.run request plan)).2 := by
  have booked := r.performBooked request plan
  have read := r.performReadings request plan
  generalize (r.answer (.run request plan)).2 = after at booked ⊢
  have before : (r.perform request plan).before = r.shelf.contents? request.output := rfl
  have asked : (r.perform request plan).request = request := rfl
  generalize r.perform request plan = q at booked read before asked ⊢
  subst asked
  cases booked with
  | silent idle fails =>
    rw [fails] at read
    exact books.unreported fails read rfl (by rw [idle]; rfl) (fun _ => rfl) rfl
  | refused active failing fails =>
    rw [fails] at read
    refine books.unreported fails read rfl ?_ ?_ rfl
    · rw [active]
      exact (Shelf.persistCounts ..).1
    · intro p
      exact (Shelf.persistContents ..).trans (if_neg fun both => failing both.1)
  | kept active working returned outcome duration =>
    rw [returned] at read
    refine books.reported returned read rfl ?_ ?_ ?_ duration rfl
    · rw [active]
      exact (Shelf.persistCounts ..).1
    · intro p
      refine (Shelf.persistContents ..).trans ?_
      simp only [working, true_and]
      rfl
    · rw [before]
      exact Shelf.persistOutcome _ _ _ outcome

theorem historyBooks {clock : Clock} {runs : List Performance} {r : Rehearsal}
    (books : Books clock runs r) (steps : List Step) :
    Books clock (runs ++ r.history steps) (r.after steps) := by
  induction steps generalizing runs r with
  | nil => simpa [history, after] using books
  | cons s steps ih =>
    rw [history, after, ← List.append_assoc]
    refine ih ?_
    cases s with
    | run request plan => exact performBooks books request plan
    | recast part =>
      rw [performance?, Option.toList_none, List.append_nil]
      exact ⟨books.received, books.attempts, books.contents, books.reports, books.readings,
        books.clock⟩
    | contents p =>
      rw [performance?, Option.toList_none, List.append_nil]
      exact books
    | invocations =>
      rw [performance?, Option.toList_none, List.append_nil]
      exact books

def fresh (part : Part) (failure : Option String) (clock : Clock) : Rehearsal :=
  ⟨part, [], .empty failure, clock⟩

theorem booksKept (part : Part) (failure : Option String) (clock : Clock) (steps : List Step) :
    Books clock ((fresh part failure clock).history steps)
      ((fresh part failure clock).after steps) := by
  have start : Books clock [] (fresh part failure clock) :=
    ⟨rfl, rfl, fun _ => rfl, fun _ member => absurd member List.not_mem_nil, rfl, rfl⟩
  exact historyBooks start steps

end Rehearsal
end BuildProbe
