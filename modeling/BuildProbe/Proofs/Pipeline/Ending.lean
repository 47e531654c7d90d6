import BuildProbe.Pipeline

/-!
How a run ends. What comes of a run is settled by what the runner answers, by whether the signal
has been given when it has answered, and by what the writer and the clock then say. There are
five endings. Each fixes the result, everything that the log was told, and the state that the
services are left in. A probe that never answers leaves the run hanging; in every other case the
run has a result.
-/
namespace BuildProbe.Services

abbrev Answer (σ : Type) : Type := Served σ (Option (Except ProbeFailure Captured))

def answer (services : Services σ) (request : Request) (timeline : Timeline) (state : σ) :
    Answer σ :=
  services.probe request.invocation timeline (services.clock state).2

variable (services : Services σ) (request : Request) (start : Int64) (heard : Bool)
  (answered : Answer σ)

def opening : List Event :=
  .running request.probe request.output.text request.invocation.overrides.vars :: answered.told

def findings (captured : Captured) : List Event :=
  (Directive.warnings captured.stdout).map (Event.probeWarning request.probe)
    ++ [.selected request.probe (Directive.flags captured.stdout).length]

def delivery (captured : Captured) : Served σ (Except WriteFailure Outcome) :=
  services.persist request.output (Directive.flags captured.stdout) answered.state

def account (captured : Captured) (outcome : Outcome) : Report :=
  ⟨request.probe, request.output.text, (Directive.flags captured.stdout).map Flag.display, outcome,
    (services.clock (services.delivery request answered captured).state).1 - start⟩

def closing (report : Report) : Event :=
  .completed report.probe report.output report.flags.length report.outcome report.duration

def conclude : Run × σ :=
  match answered.result with
  | none => (⟨.hanging, opening request answered⟩, answered.state)
  | some (.error cause) =>
    (⟨.ended (.error (.probe cause)),
      opening request answered ++ [.probeFailed request.probe cause]⟩, answered.state)
  | some (.ok captured) =>
    if heard then
      (⟨.ended (.error (.probe (.cancelled request.probe))),
        opening request answered ++ (findings request captured ++ [.cancelled request.probe])⟩,
        answered.state)
    else
      let delivered := services.delivery request answered captured
      match delivered.result with
      | .error cause =>
        (⟨.ended (.error (.write cause)), opening request answered ++ findings request captured
          ++ (delivered.told ++ [.writeFailed request.output.text cause])⟩, delivered.state)
      | .ok outcome =>
        let report := services.account request start answered captured outcome
        (⟨.ended (.ok report), opening request answered ++ findings request captured
          ++ delivered.told ++ [closing report]⟩, (services.clock delivered.state).2)

theorem runConcludes (timeline : Timeline) (state : σ) :
    services.run request timeline state =
      services.conclude request (services.clock state).1 (timeline.heardBy .returned)
        (services.answer request timeline state) := by
  -- The clock is read at once; what the second step does is up to the runner's answer.
  have unfolded : services.run request timeline state = Run.advances services request timeline 4
      ⟨.begun (services.clock state).1, [.running request.probe request.output.text
        request.invocation.overrides.vars]⟩ (services.clock state).2 := rfl
  rw [unfolded]
  generalize result : services.answer request timeline state = answered
  unfold answer at result
  obtain ⟨answer, told, after⟩ := answered
  cases answer with
  | none => simp only [Run.advances, Run.advance, Run.reach, result]; rfl
  | some verdict =>
    cases verdict with
    | error cause => simp only [Run.advances, Run.advance, Run.reach, result]; rfl
    | ok captured =>
      cases heard : timeline.heardBy .returned with
      | true => simp only [Run.advances, Run.advance, Run.reach, result, heard, if_true]; rfl
      | false =>
        unfold conclude delivery
        cases delivered : services.persist request.output (Directive.flags captured.stdout) after
        rename_i outcome events last
        cases outcome with
        | error cause =>
          simp only [Run.advances, Run.advance, Run.reach, result, heard, Bool.false_eq_true,
            if_false, delivered]
          rfl
        | ok outcome =>
          simp only [Run.advances, Run.advance, Run.reach, result, heard, Bool.false_eq_true,
            if_false, delivered, account, delivery, closing, List.length_map]
          rfl

theorem runAlike {t t' : Timeline} {state : σ}
    (same : services.answer request t state = services.answer request t' state)
    (alike : t.heardBy .returned = t'.heardBy .returned ∨
      (services.answer request t' state).result = none) :
    services.run request t state = services.run request t' state := by
  rw [runConcludes, runConcludes, same]
  rcases alike with heard | silent
  · rw [heard]
  · simp only [conclude, silent]

inductive Ends : Option (Except RunFailure Report) → σ → Prop where
  | hung (silent : answered.result = none) : Ends none answered.state
  | failed {cause} (said : answered.result = some (.error cause)) :
      Ends (some (.error (.probe cause))) answered.state
  | cancelled {captured} (said : answered.result = some (.ok captured)) (given : heard = true) :
      Ends (some (.error (.probe (.cancelled request.probe)))) answered.state
  | unwritten {captured cause} (said : answered.result = some (.ok captured))
      (missing : heard = false)
      (refused : (services.delivery request answered captured).result = .error cause) :
      Ends (some (.error (.write cause))) (services.delivery request answered captured).state
  | reported {captured outcome} (said : answered.result = some (.ok captured))
      (missing : heard = false)
      (kept : (services.delivery request answered captured).result = .ok outcome) :
      Ends (some (.ok (services.account request start answered captured outcome)))
        (services.clock (services.delivery request answered captured).state).2

theorem concludeEnds :
    services.Ends request start heard answered
      (services.conclude request start heard answered).1.result?
      (services.conclude request start heard answered).2 := by
  unfold conclude
  split
  · rename_i silent
    exact .hung silent
  · rename_i cause said
    exact .failed said
  · rename_i captured said
    split
    · rename_i given
      exact .cancelled said given
    · rename_i missing
      dsimp only
      split
      · rename_i cause refused
        exact .unwritten said (by simpa using missing) refused
      · rename_i outcome kept
        exact .reported said (by simpa using missing) kept

theorem runEnds (timeline : Timeline) (state : σ) :
    services.Ends request (services.clock state).1 (timeline.heardBy .returned)
      (services.answer request timeline state) (services.run request timeline state).1.result?
      (services.run request timeline state).2 := by
  rw [runConcludes]
  exact concludeEnds ..

theorem concludeSame {request request' : Request} (output : request.output = request'.output)
    (probe : request.probe = request'.probe) :
    (services.conclude request start heard answered).1.result? =
        (services.conclude request' start heard answered).1.result? ∧
      (services.conclude request start heard answered).2 =
        (services.conclude request' start heard answered).2 := by
  have delivered : services.delivery request answered = services.delivery request' answered := by
    funext captured
    rw [delivery, delivery, output]
  unfold conclude account
  rw [probe, output, delivered]
  cases answered.result with
  | none => exact ⟨rfl, rfl⟩
  | some answer =>
    cases answer with
    | error cause => exact ⟨rfl, rfl⟩
    | ok captured =>
      cases heard with
      | true => exact ⟨rfl, rfl⟩
      | false =>
        dsimp only
        cases (services.delivery request' answered captured).result <;> exact ⟨rfl, rfl⟩

theorem runReported {timeline : Timeline} {state : σ} {report : Report}
    (done : (services.run request timeline state).1.result? = some (.ok report)) :
    ∃ captured outcome, (services.answer request timeline state).result = some (.ok captured) ∧
      (services.delivery request (services.answer request timeline state) captured).result
        = .ok outcome ∧
      report = services.account request (services.clock state).1
        (services.answer request timeline state) captured outcome ∧
      (services.run request timeline state).2 =
        (services.clock
          (services.delivery request (services.answer request timeline state) captured).state).2 := by
  have ends := services.runEnds request timeline state
  rw [done] at ends
  generalize (services.run request timeline state).2 = after at ends ⊢
  cases ends with
  | reported said missing kept => exact ⟨_, _, said, kept, rfl, rfl⟩

theorem runUnreported {timeline : Timeline} {state : σ}
    (missing : ∀ report, (services.run request timeline state).1.result? ≠ some (.ok report)) :
    (services.run request timeline state).2 = (services.answer request timeline state).state ∨
      ∃ captured cause, (services.run request timeline state).1.result?
          = some (.error (.write cause)) ∧
        (services.delivery request (services.answer request timeline state) captured).result
          = .error cause ∧
        (services.run request timeline state).2 =
          (services.delivery request (services.answer request timeline state) captured).state := by
  have ends := services.runEnds request timeline state
  generalize (services.run request timeline state).1.result? = result at ends missing ⊢
  generalize (services.run request timeline state).2 = after at ends ⊢
  cases ends with
  | hung silent => exact .inl rfl
  | failed said => exact .inl rfl
  | cancelled said given => exact .inl rfl
  | unwritten said unheard refused => exact .inr ⟨_, _, rfl, refused, rfl⟩
  | reported said unheard kept => exact absurd rfl (missing _)

end BuildProbe.Services
