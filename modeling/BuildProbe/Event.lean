import BuildProbe.Artifact
import BuildProbe.Failure
import BuildProbe.Release
import BuildProbe.Text.Quoted
/-!
What a run tells its log. An event is a cause with what it concerns; level, message, fields and
the component that tells it follow from the cause.
-/
namespace BuildProbe

inductive Level where
  | error
  | warn
  | info
  | debug
  | trace
  deriving DecidableEq, Repr

def Level.rank : Level → Nat
  | .error => 1
  | .warn => 2
  | .info => 3
  | .debug => 4
  | .trace => 5

def Level.name : Level → String
  | .error => "ERROR"
  | .warn => "WARN"
  | .info => "INFO"
  | .debug => "DEBUG"
  | .trace => "TRACE"

def Level.all : List Level := [.error, .warn, .info, .debug, .trace]

inductive Component where
  | command
  | pipeline
  | runner
  | writer
  deriving DecidableEq, Repr

def Component.target : Component → String
  | .command => "cfgprobe"
  | .pipeline => "cfgprobe_core::application::pipeline"
  | .runner => "cfgprobe_infra_system::subprocess_runner"
  | .writer => "cfgprobe_infra_system::fs_artifact_writer"

inductive Event where
  | starting
  | interrupted
  | running (probe output : String) (overrides : List (String × String))
  | probeFailed (probe : String) (cause : ProbeFailure)
  | probeWarning (probe message : String)
  | selected (probe : String) (count : Nat)
  | cancelled (probe : String)
  | writeFailed (output : String) (cause : WriteFailure)
  | completed (probe output : String) (count : Nat) (outcome : Outcome) (duration : Int64)
  | spawned (program : String)
  | stderrLine (program line : String)
  | terminating
  | terminateFailed (why : String)
  | terminated
  | killing
  | killFailed (why : String)
  | persisted (output : String) (outcome : Outcome)
  deriving DecidableEq, Repr

namespace Event

def component : Event → Component
  | starting | interrupted => .command
  | running .. | probeFailed .. | probeWarning .. | selected .. | cancelled ..
  | writeFailed .. | completed .. => .pipeline
  | spawned .. | stderrLine .. | terminating | terminateFailed _ | terminated | killing
  | killFailed _ => .runner
  | persisted .. => .writer

def level : Event → Level
  | interrupted | probeFailed .. | probeWarning .. | cancelled .. | writeFailed ..
  | terminateFailed _ | killing | killFailed _ => .warn
  | starting | running .. | completed .. | terminating | terminated => .info
  | selected .. | spawned .. | stderrLine .. | persisted .. => .debug

def message : Event → String
  | starting => commandName ++ " v" ++ version ++ " starting"
  | interrupted => "Interrupt received, cancelling probe"
  | running .. => "Running build probe"
  | probeFailed .. => "Build probe failed"
  | probeWarning _ message => "probe warning: " ++ message
  | selected .. => "Selected cfg directives"
  | cancelled .. => "Cancelled before artifact write"
  | writeFailed .. => "Artifact write failed"
  | completed .. => "Build probe completed"
  | spawned .. => "Probe spawned"
  | stderrLine _ line => "probe stderr: " ++ line
  | terminating => "Sending SIGTERM to cancelled probe"
  | terminateFailed _ => "SIGTERM failed"
  | terminated => "Probe exited after SIGTERM"
  | killing => "Probe did not exit after SIGTERM, sending SIGKILL"
  | killFailed _ => "Failed to kill cancelled probe"
  | persisted .. => "Artifact persisted"

def fields : Event → List (String × String)
  | starting | interrupted | terminating | terminated | killing => []
  | running probe output _ => [("probe", probe), ("output", output)]
  | probeFailed probe cause =>
    [("probe", probe), ("stage", cause.stage.name), ("error", cause.message)]
  | probeWarning probe _ => [("probe", probe)]
  | selected probe count => [("probe", probe), ("flag_count", toString count)]
  | cancelled probe => [("probe", probe)]
  | writeFailed output cause => [("output", output), ("error", cause.message)]
  | completed probe output count outcome duration =>
    [("probe", probe), ("output", output), ("flag_count", toString count),
      ("outcome", outcome.name), ("duration_ms", toString duration.toInt)]
  | spawned program => [("program", program)]
  | stderrLine program _ => [("program", program)]
  | terminateFailed why | killFailed why => [("error", why)]
  | persisted output outcome => [("output", output), ("outcome", outcome.name)]

def assignments (vars : List (String × String)) : String :=
  let one (w : String × String) := Text.quoted w.1 ++ ": " ++ Text.quoted w.2
  "\x7b" ++ ", ".intercalate (vars.map one) ++ "\x7d"

def details : Event → List (String × String)
  | running _ _ overrides => [("env_overrides", assignments overrides)]
  | _ => []

def numbersProcess : Event → Bool
  | spawned .. | terminating | terminateFailed _ | terminated | killing => true
  | _ => false

def fieldNames (e : Event) : List String :=
  "message" :: (if e.numbersProcess then ["pid"] else []) ++ (e.details ++ e.fields).map (·.1)

end Event

end BuildProbe
