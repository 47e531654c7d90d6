import BuildProbe.Proofs.Pipeline.Noting

/-!
The calls of the writer that a run makes. Services that keep a list of these calls beside their
own state give the same run, and no more than one call comes to stand in the list: the one with
the flags of a probe that has succeeded, in a run in which no signal had been given by then.
-/
namespace BuildProbe.Services

abbrev Call : Type := Path × List Flag

def accounted (services : Services σ) : Services (σ × List Call) where
  clock s := ((services.clock s.1).1, (services.clock s.1).2, s.2)
  probe i timeline s :=
    let served := services.probe i timeline s.1
    ⟨served.result, served.told, served.state, s.2⟩
  persist p flags s :=
    let served := services.persist p flags s.1
    ⟨served.result, served.told, served.state, s.2 ++ [(p, flags)]⟩

def calls (services : Services σ) (request : Request) (timeline : Timeline) (state : σ) :
    List Call :=
  (services.accounted.run request timeline (state, [])).2.2

def callsAfter (request : Request) (heard : Bool) (answered : Answer σ) : List Call :=
  match answered.result with
  | some (.ok captured) =>
    if heard then [] else [(request.output, Directive.flags captured.stdout)]
  | _ => []

variable {services : Services σ} {request : Request}

theorem accountedNoted (services : Services σ) :
    services.accounted = services.noted (fun _ => []) (fun p flags => [(p, flags)]) := by
  simp only [accounted, noted, List.append_nil]

theorem notesCalls (heard : Bool) (answered : Answer σ) :
    services.notes (fun _ => []) (fun p flags => [(p, flags)]) request heard answered =
      callsAfter request heard answered := by
  obtain ⟨result, told, after⟩ := answered
  cases result with
  | none => rfl
  | some verdict =>
    cases verdict with
    | error cause => rfl
    | ok captured =>
      cases heard with
      | true => rfl
      | false =>
        simp only [notes, callsAfter, Bool.false_eq_true, if_false]
        split <;> rfl

theorem accountedRun (timeline : Timeline) (state : σ) (known : List Call) :
    services.accounted.run request timeline (state, known) =
      ((services.run request timeline state).1, (services.run request timeline state).2,
        known ++ callsAfter request (timeline.heardBy .returned)
          (services.answer request timeline state)) := by
  rw [accountedNoted, notedRun, notesCalls, List.append_nil]

theorem callsAnswered (timeline : Timeline) (state : σ) :
    services.calls request timeline state =
      callsAfter request (timeline.heardBy .returned)
        (services.answer request timeline state) := by
  unfold calls
  rw [accountedRun]
  rfl

theorem callsHeard (services : Services σ) (request : Request) {timeline : Timeline}
    (heard : timeline.heardBy .returned = true) (state : σ) :
    services.calls request timeline state = [] := by
  rw [callsAnswered, heard]
  unfold callsAfter
  split <;> rfl

theorem callsFailed {timeline : Timeline} {state : σ} {cause : ProbeFailure}
    (failed : (services.answer request timeline state).result = some (.error cause)) :
    services.calls request timeline state = [] := by
  rw [callsAnswered, callsAfter, failed]

end BuildProbe.Services
