import BuildProbe.Proofs.Pipeline.Ending

/-!
Services that take notes. Beside their own state they keep a list, to which something may be added
at every reading of the clock and at every call of the writer. Taking notes changes nothing about a
run, and what a run adds is settled by what the runner answers and by whether there was a signal.
-/
namespace BuildProbe.Services

variable {α : Type} (services : Services σ) (atReading : Int64 → List α)
  (atCall : Path → List Flag → List α)

def noted : Services (σ × List α) where
  clock s :=
    ((services.clock s.1).1, (services.clock s.1).2, s.2 ++ atReading (services.clock s.1).1)
  probe i timeline s :=
    let served := services.probe i timeline s.1
    ⟨served.result, served.told, served.state, s.2⟩
  persist p flags s :=
    let served := services.persist p flags s.1
    ⟨served.result, served.told, served.state, s.2 ++ atCall p flags⟩

def notes (request : Request) (heard : Bool) (answered : Answer σ) : List α :=
  match answered.result with
  | some (.ok captured) =>
    if heard then []
    else
      let delivered := services.delivery request answered captured
      atCall request.output (Directive.flags captured.stdout) ++
        match delivered.result with
        | .ok _ => atReading (services.clock delivered.state).1
        | .error _ => []
  | _ => []

variable {services} {request : Request}

theorem notedConcludes (start : Int64) (heard : Bool) (answered : Answer σ) (known : List α) :
    (services.noted atReading atCall).conclude request start heard
        ⟨answered.result, answered.told, answered.state, known⟩ =
      ((services.conclude request start heard answered).1,
        (services.conclude request start heard answered).2,
        known ++ services.notes atReading atCall request heard answered) := by
  obtain ⟨result, told, after⟩ := answered
  unfold conclude notes
  cases result with
  | none => simp [opening]
  | some verdict =>
    cases verdict with
    | error cause => simp [opening]
    | ok captured =>
      cases heard with
      | true => simp [opening, findings]
      | false =>
        simp only [Bool.false_eq_true, if_false, delivery, noted, account]
        split <;> simp_all [opening, findings]

theorem notedRun (timeline : Timeline) (state : σ) (known : List α) :
    (services.noted atReading atCall).run request timeline (state, known) =
      ((services.run request timeline state).1, (services.run request timeline state).2,
        known ++ atReading (services.clock state).1 ++
          services.notes atReading atCall request (timeline.heardBy .returned)
            (services.answer request timeline state)) := by
  rw [runConcludes, runConcludes]
  exact notedConcludes ..

end BuildProbe.Services
