import BuildProbe.Artifact.Writing
import BuildProbe.Probe.Launch
import BuildProbe.Probe.Supervision
/-!
The pipeline in the world: processes and files. A world is a tree and an environment, with the
conduct of what is started in it and the site at which it is written. A run starts the probe that
it finds in the tree and persists the artifact there, as far as the system lets it.
-/
namespace BuildProbe

structure World where
  tree : Tree
  environment : Environment
  clock : Clock
  grace : Nat
  aftermath : Option Aftermath
  conduct : Conduct
  site : Site

namespace World

def performance (w : World) (i : Invocation) : Except Refusal Performance :=
  Launch.perform w.conduct w.tree w.environment i

def story (w : World) (i : Invocation) : Except Refusal Story := (w.performance i).map (·.story)

def stuck? (w : World) (i : Invocation) : Option Moment :=
  match w.story i with
  | .ok story => story.stuck?
  | .error _ => none

/-- The tree after a probe, which is as it was when none has been started. -/
def leftBy (w : World) (i : Invocation) (timeline : Timeline) : Tree :=
  if timeline.heardBy .ahead then w.tree
  else match w.performance i with
    | .ok performance => performance.tree
    | .error _ => w.tree

def course (w : World) (m : Mishaps) (i : Invocation) (timeline : Timeline) : Course :=
  .of (w.story i) m i.program w.grace timeline

def probeUnder (m : Mishaps) (i : Invocation) (timeline : Timeline) (w : World) :
    Served World (Option (Except ProbeFailure Captured)) :=
  let course := w.course m i timeline
  let aftermath := match w.stuck? i with
    | some .running => course.process.map fun p => ⟨p.alive, p.noticed⟩
    | _ => none
  ⟨course.result, course.told, { w with tree := w.leftBy i timeline, aftermath := aftermath }⟩

def persistUnder (disk : Disk) (p : Path) (flags : List Flag) (w : World) :
    Served World (Except WriteFailure Outcome) :=
  let (tree, result) := w.tree.persist w.site disk p flags
  let told := match result with
    | .ok outcome => [Event.persisted p.text outcome]
    | .error _ => []
  ⟨result, told, { w with tree := tree }⟩

def servicesUnder (m : Mishaps) (disk : Disk) : Services World where
  clock w := (w.clock.read.1, { w with clock := w.clock.read.2 })
  probe := probeUnder m
  persist := persistUnder disk

/-! ## With a system that refuses nothing -/

def probe : Invocation → Timeline → World →
    Served World (Option (Except ProbeFailure Captured)) := probeUnder .none

def persist : Path → List Flag → World → Served World (Except WriteFailure Outcome) :=
  persistUnder .sound

def services : Services World := servicesUnder .none .sound

def run (w : World) (request : Request) (plan : Plan) : Run × World :=
  services.run request (plan.timeline (w.stuck? request.invocation)) w

def runAll (w : World) : List Request → List (Option (Except RunFailure Report)) × World
  | [] => ([], w)
  | request :: requests =>
    let (run, next) := w.run request .never
    let (results, last) := next.runAll requests
    (run.result? :: results, last)

end World
end BuildProbe
