/-!
Why a run failed. Each failure belongs to one stage and has one message; the message of a run's
failure names the stage and repeats the message of its cause.
-/
namespace BuildProbe

inductive Stage where
  | spawn
  | wait
  | exit
  | cancelled
  | write
  deriving DecidableEq, Repr

def Stage.name : Stage → String
  | .spawn => "spawn"
  | .wait => "wait"
  | .exit => "exit"
  | .cancelled => "cancelled"
  | .write => "write"

/-- Why a probe gave no output. A status is absent when a signal ended the probe. -/
inductive ProbeFailure where
  | spawnFailed (program reason : String)
  | io (program reason : String)
  | nonZeroExit (program : String) (status : Option Int) (stderrTail : String)
  | cancelled (program : String)
  deriving DecidableEq, Repr

namespace ProbeFailure

def stage : ProbeFailure → Stage
  | .spawnFailed .. => .spawn
  | .io .. => .wait
  | .nonZeroExit .. => .exit
  | .cancelled .. => .cancelled

def statusText : Option Int → String
  | some status => "status " ++ toString status
  | none => "no status (terminated by signal)"

def tailText (stderrTail : String) : String :=
  if stderrTail = "" then "" else "\n--- stderr ---\n" ++ stderrTail

def message : ProbeFailure → String
  | .spawnFailed program reason => "Spawn failed for " ++ program ++ ": " ++ reason
  | .io program reason => "IO error while waiting for " ++ program ++ ": " ++ reason
  | .nonZeroExit program status stderrTail =>
    program ++ " exited with " ++ statusText status ++ tailText stderrTail
  | .cancelled program => program ++ " was cancelled"

end ProbeFailure

structure WriteFailure where
  path : String
  reason : String
  deriving DecidableEq, Repr

def WriteFailure.message (f : WriteFailure) : String :=
  "Write failed for " ++ f.path ++ ": " ++ f.reason

inductive RunFailure where
  | probe (cause : ProbeFailure)
  | write (cause : WriteFailure)
  deriving DecidableEq, Repr

namespace RunFailure

def stage : RunFailure → Stage
  | .probe cause => cause.stage
  | .write _ => .write

def cause : RunFailure → String
  | .probe f => f.message
  | .write f => f.message

def message : RunFailure → String
  | .probe f => "probe " ++ f.stage.name ++ " stage failed: " ++ f.message
  | .write f => "artifact write stage failed: " ++ f.message

end RunFailure
end BuildProbe
