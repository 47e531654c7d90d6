import BuildProbe.Proofs.Pipeline.Noting

/-!
The readings of the clock that a run makes. The clock is read when a run starts and once more when
its flags have been persisted, and at no other time.
-/
namespace BuildProbe.Services

def timed (services : Services σ) : Services (σ × List Int64) :=
  services.noted (fun time => [time]) (fun _ _ => [])

def readings (services : Services σ) (request : Request) (timeline : Timeline) (state : σ) :
    List Int64 :=
  (services.timed.run request timeline (state, [])).2.2

variable {services : Services σ} {request : Request}

theorem runReadings (timeline : Timeline) (state : σ) :
    services.readings request timeline state =
      match (services.run request timeline state).1.result? with
      | some (.ok report) =>
        [(services.clock state).1, (services.clock state).1 + report.duration]
      | _ => [(services.clock state).1] := by
  have ends := services.runEnds request timeline state
  rw [readings, timed, notedRun]
  generalize (services.run request timeline state).1.result? = result at ends
  generalize (services.run request timeline state).2 = after at ends
  cases ends with
  | hung silent => simp [notes, silent]
  | failed said => simp [notes, said]
  | cancelled said given => simp [notes, said, given]
  | unwritten said missing refused => simp [notes, said, missing, refused]
  | reported said missing kept =>
    have later : ∀ start stop : Int64, start + (stop - start) = stop := by
      intro start stop
      rw [Int64.add_comm, Int64.sub_add_cancel]
    simp [notes, said, missing, kept, account, later]

end BuildProbe.Services
