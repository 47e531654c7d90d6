import BuildProbe.Cancel.Timeline
import BuildProbe.Clock
import BuildProbe.Event
import BuildProbe.Invocation
import BuildProbe.Path
/-!
The pipeline: run a probe, select the flags that its output asks for, persist them. A failure of
the probe ends the run before anything is written, and so does a signal that was given before
the flags are handed on. A run goes in five steps over services that keep a state of their own,
so that the steps of several runs can alternate over one state.
-/
namespace BuildProbe

structure Request where
  invocation : Invocation
  output : Path
  deriving DecidableEq

namespace Request

def probe (r : Request) : String := r.invocation.program

end Request

structure Captured where
  stdout : String
  stderr : String
  status : Int
  deriving DecidableEq, Repr

structure Report where
  probe : String
  output : String
  flags : List String
  outcome : Outcome
  duration : Int64
  deriving DecidableEq, Repr

def Report.toJson (r : Report) : Json :=
  .obj [("probe", .str r.probe), ("output", .str r.output), ("flags", .arr (r.flags.map .str)),
    ("outcome", .str r.outcome.name), ("duration_ms", .int r.duration.toInt)]

structure Served (σ α : Type) where
  result : α
  told : List Event
  state : σ

/-- What the pipeline needs: a clock, a way to run probes, and a place to persist flags. A probe
without a result never ends. -/
structure Services (σ : Type) where
  clock : σ → Int64 × σ
  probe : Invocation → Timeline → σ → Served σ (Option (Except ProbeFailure Captured))
  persist : Path → List Flag → σ → Served σ (Except WriteFailure Outcome)

inductive Phase where
  | ready
  | begun (start : Int64)
  | probed (start : Int64) (captured : Captured)
  | chosen (start : Int64) (flags : List Flag)
  | persisted (start : Int64) (flags : List Flag) (outcome : Outcome)
  | ended (result : Except RunFailure Report)
  | hanging

structure Run where
  phase : Phase
  told : List Event

namespace Run

def start : Run := ⟨.ready, []⟩

def reach (r : Run) (phase : Phase) (told : List Event) : Run := ⟨phase, r.told ++ told⟩

def advance (services : Services σ) (request : Request) (timeline : Timeline) (r : Run)
    (state : σ) : Run × σ :=
  let probe := request.probe
  let output := request.output.text
  match r.phase with
  | .ready =>
    let (start, state) := services.clock state
    (r.reach (.begun start) [.running probe output request.invocation.overrides.vars], state)
  | .begun start =>
    let served := services.probe request.invocation timeline state
    match served.result with
    | none => (r.reach .hanging served.told, served.state)
    | some (.error cause) =>
      (r.reach (.ended (.error (.probe cause))) (served.told ++ [.probeFailed probe cause]),
        served.state)
    | some (.ok captured) => (r.reach (.probed start captured) served.told, served.state)
  | .probed start captured =>
    let flags := Directive.flags captured.stdout
    let told := (Directive.warnings captured.stdout).map (Event.probeWarning probe)
      ++ [.selected probe flags.length]
    if timeline.heardBy .returned then
      (r.reach (.ended (.error (.probe (.cancelled probe)))) (told ++ [.cancelled probe]), state)
    else (r.reach (.chosen start flags) told, state)
  | .chosen start flags =>
    let served := services.persist request.output flags state
    match served.result with
    | .error cause =>
      (r.reach (.ended (.error (.write cause))) (served.told ++ [.writeFailed output cause]),
        served.state)
    | .ok outcome => (r.reach (.persisted start flags outcome) served.told, served.state)
  | .persisted start flags outcome =>
    let (stop, state) := services.clock state
    let report : Report := ⟨probe, output, flags.map Flag.display, outcome, stop - start⟩
    (r.reach (.ended (.ok report))
      [.completed probe output flags.length outcome report.duration], state)
  | .ended _ => (r, state)
  | .hanging => (r, state)

def advances (services : Services σ) (request : Request) (timeline : Timeline) :
    Nat → Run → σ → Run × σ
  | 0, r, state => (r, state)
  | n + 1, r, state =>
    let (r, state) := r.advance services request timeline state
    advances services request timeline n r state

def result? (r : Run) : Option (Except RunFailure Report) :=
  match r.phase with
  | .ended result => some result
  | _ => none

end Run

def Services.run (services : Services σ) (request : Request) (timeline : Timeline) (state : σ) :
    Run × σ :=
  Run.advances services request timeline 5 .start state

end BuildProbe
