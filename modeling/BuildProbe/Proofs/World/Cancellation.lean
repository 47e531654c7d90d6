import BuildProbe.Proofs.Pipeline.Accounting
import BuildProbe.Proofs.World.Delivery

/-!
Cancellation at any moment. A signal that comes before the run looks at it ends the run with a
cancelled probe or with the failure that the probe had on its own, and then nothing is written.
A signal that comes later changes nothing, and neither does a handle that is dropped without
one. What is said of a runner in general is said of the world's runner without any condition on
its answers.
-/
namespace BuildProbe

def Timeline.never : Timeline := .single .ahead .drop

theorem Timeline.neverSilent (m : Moment) : Act.signal ∉ never.acts m := by
  unfold never single
  dsimp only
  split <;> decide

theorem Timeline.neverUnheard (m : Moment) : never.heardBy m = false :=
  silentUnheard neverSilent m

namespace Services

def stopped (program : String) : Except ProbeFailure Captured → Except RunFailure Report
  | .ok _ => .error (.probe (.cancelled program))
  | .error cause => .error (.probe cause)

variable {services : Services σ} {request : Request}

theorem heardStopped (services : Services σ) (request : Request) {timeline : Timeline}
    (heard : timeline.heardBy .returned = true) (state : σ) :
    (services.run request timeline state).1.result? =
      (services.answer request timeline state).result.map (stopped request.probe) := by
  have ends := services.runEnds request timeline state
  rw [heard] at ends
  generalize (services.run request timeline state).1.result? = result at ends
  generalize (services.run request timeline state).2 = after at ends
  cases ends with
  | hung silent => rw [silent]; rfl
  | failed said => rw [said]; rfl
  | cancelled said => rw [said]; rfl
  | unwritten said missing => cases missing
  | reported said missing => cases missing

theorem failedEnds {timeline : Timeline} {state : σ} {cause : ProbeFailure}
    (failed : (services.answer request timeline state).result = some (.error cause)) :
    (services.run request timeline state).1.result? = some (.error (.probe cause)) := by
  rw [runConcludes, conclude, failed]
  rfl

theorem callsAlike {t t' : Timeline} {state : σ}
    (same : services.answer request t state = services.answer request t' state)
    (alike : t.heardBy .returned = t'.heardBy .returned ∨
      (services.answer request t' state).result = none) :
    services.calls request t state = services.calls request t' state := by
  rw [callsAnswered, callsAnswered, same]
  rcases alike with heard | silent
  · rw [heard]
  · simp only [callsAfter, silent]

end Services

namespace World

def due (w : World) (i : Invocation) : Moment :=
  match w.story i with
  | .ok story => story.due
  | .error _ => .returned

theorem probeUnheard {w : World} {i : Invocation} {t t' : Timeline}
    (unheard : t.heardBy (w.due i) = false) (unheard' : t'.heardBy (w.due i) = false) :
    probe i t w = probe i t' w := by
  have course : w.course .none i t = w.course .none i t' := by
    unfold World.course
    unfold due at unheard unheard'
    cases launched : w.story i with
    | error why =>
      simp only [launched] at unheard unheard'
      rw [Course.refusedUnheard (Timeline.unheardEarlier (by decide) unheard),
        Course.refusedUnheard (Timeline.unheardEarlier (by decide) unheard')]
    | ok story =>
      simp only [launched] at unheard unheard'
      rw [Course.courseUnheard unheard, Course.courseUnheard unheard']
  have ahead : Moment.ahead.upTo <+: (w.due i).upTo := by
    unfold due
    split
    · rename_i story _
      exact story.dueAhead
    · decide
  have tree : w.leftBy i t = w.leftBy i t' := by
    simp only [leftBy, Timeline.unheardEarlier ahead unheard, Timeline.unheardEarlier ahead unheard']
  simp only [probe, probeUnder, course, tree]

theorem dueCases (w : World) (i : Invocation) :
    w.due i = .returned ∨
      ∃ story h, w.story i = .ok story ∧ story.ending = .hangs h ∧ w.due i = .running := by
  unfold due
  split
  · rename_i story launched
    unfold Story.due
    split
    · rename_i h hangs
      exact .inr ⟨story, h, launched, hangs, rfl⟩
    · exact .inl rfl
  · exact .inl rfl

theorem runUnheard (w : World) (request : Request) {t t' : Timeline}
    (unheard : t.heardBy (w.due request.invocation) = false)
    (unheard' : t'.heardBy (w.due request.invocation) = false) :
    services.run request t w = services.run request t' w ∧
      services.calls request t w = services.calls request t' w := by
  have same : services.answer request t w = services.answer request t' w :=
    probeUnheard (w := { w with clock := w.clock.read.2 }) unheard unheard'
  have alike : t.heardBy .returned = t'.heardBy .returned ∨
      (services.answer request t' w).result = none := by
    rcases w.dueCases request.invocation with due | ⟨story, h, launched, hangs, due⟩
    · rw [due] at unheard unheard'
      exact .inl (unheard.trans unheard'.symm)
    · rw [due] at unheard'
      have silent := Course.hangingUnheard hangs unheard' request.probe w.grace
      rw [← launched] at silent
      exact .inr silent
  exact ⟨services.runAlike request same alike, Services.callsAlike same alike⟩

theorem runHeard {w : World} {request : Request} {timeline : Timeline}
    (heard : timeline.heardBy (w.due request.invocation) = true) :
    ∃ cause, (services.run request timeline w).1.result? = some (.error (.probe cause)) ∧
      (cause = .cancelled request.probe ∨
        (services.run request .never w).1.result? = some (.error (.probe cause))) ∧
      services.calls request timeline w = [] := by
  rcases w.dueCases request.invocation with due | ⟨story, h, launched, hangs, due⟩
  · rw [due] at heard
    have ended := services.heardStopped request heard w
    have nothing := services.callsHeard request heard w
    cases answered : (services.answer request timeline w).result with
    | none =>
      obtain ⟨story, h, launched, hangs, _⟩ := Course.courseSilent answered
      have launched : w.story request.invocation = .ok story := launched
      simp only [World.due, launched, Story.due, hangs] at due
      cases due
    | some verdict =>
      rw [answered] at ended
      cases verdict with
      | ok captured => exact ⟨_, ended, .inl rfl, nothing⟩
      | error cause =>
        refine ⟨cause, ended, ?_, nothing⟩
        rcases Course.courseResult (w.story request.invocation) .none request.probe w.grace timeline
          with cancelled | same
        · have told := answered.symm.trans cancelled
          cases told
          exact .inl rfl
        · have quiet : (services.answer request .quiet w).result = some (.error cause) :=
            same.symm.trans answered
          have never := w.runUnheard request (Timeline.quietUnheard _) (Timeline.neverUnheard _)
          rw [← never.1]
          exact .inr (Services.failedEnds quiet)
  · rw [due] at heard
    have cancelled := Course.hangingHeard hangs heard request.probe w.grace
    rw [← launched] at cancelled
    exact ⟨_, Services.failedEnds cancelled, .inl rfl, Services.callsFailed cancelled⟩

end World

theorem cancellationSafe (request : Request) (timeline : Timeline) :
    (∀ {σ : Type} (services : Services σ) (state : σ),
      (timeline.heardBy .returned = true →
        (services.run request timeline state).1.result? =
          (services.answer request timeline state).result.map (Services.stopped request.probe) ∧
        services.calls request timeline state = []) ∧
      (timeline.heardBy .returned = false ∨ (∀ m, Act.signal ∉ timeline.acts m) →
        services.answer request timeline state = services.answer request .never state →
        services.run request timeline state = services.run request .never state ∧
        services.calls request timeline state = services.calls request .never state)) ∧
    ∀ w : World,
      (timeline.heardBy (w.due request.invocation) = true →
        ∃ cause, (World.services.run request timeline w).1.result? = some (.error (.probe cause)) ∧
          (cause = .cancelled request.probe ∨
            (World.services.run request .never w).1.result? = some (.error (.probe cause))) ∧
          World.services.calls request timeline w = []) ∧
      (timeline.heardBy (w.due request.invocation) = false ∨ (∀ m, Act.signal ∉ timeline.acts m) →
        World.services.run request timeline w = World.services.run request .never w ∧
        World.services.calls request timeline w = World.services.calls request .never w) := by
  have unheard : ∀ m, timeline.heardBy m = false ∨ (∀ m, Act.signal ∉ timeline.acts m) →
      timeline.heardBy m = false := by
    rintro m (missing | silent)
    · exact missing
    · exact Timeline.silentUnheard silent m
  refine ⟨?_, ?_⟩
  · intro σ services state
    refine ⟨?_, ?_⟩
    · intro heard
      exact ⟨services.heardStopped request heard state, services.callsHeard request heard state⟩
    intro missing same
    have alike := (unheard .returned missing).trans (Timeline.neverUnheard .returned).symm
    exact ⟨services.runAlike request same (.inl alike), Services.callsAlike same (.inl alike)⟩
  · intro w
    refine ⟨World.runHeard, ?_⟩
    intro missing
    exact w.runUnheard request (unheard _ missing) (Timeline.neverUnheard _)

def Services.idle : Services Unit where
  clock _ := (0, ())
  probe _ _ _ := ⟨some (.ok ⟨"", "", 0⟩), [], ()⟩
  persist _ _ _ := ⟨.ok .unchanged, [], ()⟩

theorem cancellationAround :
    let request := World.toSingle "out"
    (Services.idle.calls request (.single .returned .signal) () = [] ∧
      Services.idle.run request (.single .writing .signal) () =
        Services.idle.run request .never ()) ∧
    (∃ cause, (World.services.run request (.single .returned .signal) .single).1.result? =
        some (.error (.probe cause))) ∧
    World.services.run request (.single .writing .signal) .single =
      World.services.run request .never .single := by
  intro request
  have early := cancellationSafe request (.single .returned .signal)
  have late := cancellationSafe request (.single .writing .signal)
  refine ⟨⟨((early.1 Services.idle ()).1 rfl).2, ((late.1 Services.idle ()).2 (.inl rfl) rfl).1⟩,
    ?_, ((late.2 .single).2 (.inl (by cbv))).1⟩
  obtain ⟨cause, ended, _⟩ := (early.2 .single).1 (by cbv)
  exact ⟨cause, ended⟩

end BuildProbe
