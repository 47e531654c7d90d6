import BuildProbe.Pipeline
/-!
Rehearsals: the pipeline without processes and files. Probes play a part that is given in
advance, artifacts are kept in memory under their paths' components, and the clock moves on by a
fixed step. What was asked of the probe and how often something was to be kept is on record.
-/
namespace BuildProbe

inductive Part where
  | prints (stdout : String)
  | exits (status : Int)
  | failsToStart (reason : String)
  | hangs
  deriving DecidableEq, Repr

namespace Part

def stuck? : Part → Option Moment
  | .hangs => some .running
  | _ => none

def play (p : Part) (program : String) (timeline : Timeline) :
    Option (Except ProbeFailure Captured) :=
  match p with
  | .prints stdout => some (.ok ⟨stdout, "", 0⟩)
  | .exits status => some (.error (.nonZeroExit program (some status) ""))
  | .failsToStart reason => some (.error (.spawnFailed program reason))
  | .hangs => if timeline.heardBy .running then some (.error (.cancelled program)) else none

end Part

structure Shelf where
  artifacts : List (Path × String)
  failure : Option String
  attempts : Nat
  deriving DecidableEq, Repr

namespace Shelf

def empty (failure : Option String) : Shelf := ⟨[], failure, 0⟩

def contents? (s : Shelf) (p : Path) : Option String :=
  (s.artifacts.find? (·.1 = p.normal)).map (·.2)

def put (s : Shelf) (p : Path) (text : String) : Shelf :=
  { s with artifacts := (p.normal, text) :: s.artifacts.filter (·.1 ≠ p.normal) }

def persist (s : Shelf) (p : Path) (flags : List Flag) : Except WriteFailure Outcome × Shelf :=
  let text := Artifact.render flags
  let tried := { s with attempts := s.attempts + 1 }
  match s.failure with
  | some reason => (.error ⟨p.text, reason⟩, tried)
  | none =>
    if s.contents? p = some text then (.ok .unchanged, tried) else (.ok .written, tried.put p text)

end Shelf

structure Rehearsal where
  part : Part
  received : List Invocation
  shelf : Shelf
  clock : Clock
  deriving DecidableEq

namespace Rehearsal

def services : Services Rehearsal where
  clock r := (r.clock.read.1, { r with clock := r.clock.read.2 })
  probe invocation timeline r :=
    ⟨r.part.play invocation.program timeline, [],
      { r with received := r.received ++ [invocation] }⟩
  persist p flags r :=
    let (result, shelf) := r.shelf.persist p flags
    ⟨result, [], { r with shelf := shelf }⟩

inductive Step where
  | recast (part : Part)
  | run (request : Request) (plan : Plan)
  | contents (p : Path)
  | invocations
  deriving DecidableEq

inductive Answer where
  | nothing
  | run (result : Option (Except RunFailure Report)) (contents : Option String) (told : List Event)
  | contents (text : Option String)
  | invocations (received : List Invocation)

def answer (r : Rehearsal) : Step → Answer × Rehearsal
  | .recast part => (.nothing, { r with part := part })
  | .run request plan =>
    let (run, r) := services.run request (plan.timeline r.part.stuck?) r
    (.run run.result? (r.shelf.contents? request.output) run.told, r)
  | .contents p => (.contents (r.shelf.contents? p), r)
  | .invocations => (.invocations r.received, r)

def answers (r : Rehearsal) : List Step → List (Answer × Rehearsal)
  | [] => []
  | s :: steps => r.answer s :: answers (r.answer s).2 steps

end Rehearsal
end BuildProbe
