import BuildProbe.Command
import BuildProbe.Proofs.Command.Settings
import BuildProbe.Proofs.Probe.Resemblance
import BuildProbe.Proofs.World.Repetition

/-!
What the probe of a command finds in its environment. The last `--env` of a name gives its value.
Where there is none, the target comes from its option, or from the variable that stands in for it,
or is empty, and every other variable is what the command has received itself. A command line with
an `--env` that is no assignment starts no probe.
-/
namespace BuildProbe.Command

open Environment (Askable Separable text lastAssigned?)

variable {w : World} {args : List String} {a : Arguments}

def Arguments.made (a : Arguments) (w : World) (interrupt : Bool) : Run × World :=
  let request := a.request w.environment
  w.run request (interruptPlan interrupt (w.stuck? request.invocation))

theorem runAccepted (accepted : Arguments.parse w.environment args = .ok a) (interrupt : Bool) :
    run w args interrupt = (.broken, w) ∨
      ∃ told, run w args interrupt =
        (.ran (a.request w.environment) a.report (a.made w interrupt).1.result? told,
          (a.made w interrupt).2) := by
  unfold run
  rw [accepted]
  simp only
  split
  · exact .inl rfl
  · exact .inr ⟨_, rfl⟩

theorem runRefused {halt : Halt} (refused : Arguments.parse w.environment args = .error halt)
    (interrupt : Bool) : run w args interrupt = (.halted halt, w) := by
  rw [run, refused]

variable {environment : Environment} {name : String}

theorem invocationOverrides (a : Arguments) (environment : Environment) :
    (a.invocation environment).overrides =
      (Environment.empty.set targetVariable a.target).setAll a.env := rfl

theorem givenSeparable (askable : ∀ v ∈ a.env, Askable v.1) (environment : Environment) :
    ∀ v ∈ (Launch.given environment (a.invocation environment)).vars, Separable v.1 := by
  intro v member
  rcases Environment.setAllVars member with asked | received
  · rw [invocationOverrides] at asked
    rcases Environment.setAllVars asked with own | target
    · exact Environment.askableSeparable (askable v own)
    · cases List.mem_singleton.mp target
      exact ⟨'T', "ARGET".toList, (by decide : targetVariable.toList = _), by decide⟩
  · exact Environment.receivedSeparable received

theorem givenSees (accepted : Arguments.parse environment args = .ok a) (askable : Askable name) :
    (Launch.given environment (a.invocation environment)).seen? name =
      (lastAssigned? name ((values .env args).map String.toList)).or
        (if name = targetVariable then
          some (((values .target args).getLast?.or (environment.seen? "CFGPROBE_TARGET")).getD "")
        else lastAssigned? name (environment.vars.map text)) := by
  obtain ⟨taken, target⟩ := Arguments.parseValues accepted
  obtain ⟨texts, names⟩ := Arguments.assignedTexts taken
  have separable : ∀ v ∈ a.env, Separable v.1 :=
    fun v member => Environment.askableSeparable (names v member)
  have standIn : Key.fromEnvironment? .target environment = environment.seen? "CFGPROBE_TARGET" :=
    rfl
  rw [Environment.seenSeparable (givenSeparable names environment) askable, Launch.given,
    Environment.getOverride, invocationOverrides, Environment.getSetAll, Environment.getSet,
    Environment.getReceived environment askable, texts,
    Environment.lastSeparable separable askable, target, standIn, Option.or_assoc]
  by_cases own : targetVariable = name
  · rw [if_pos own, if_pos own.symm]
    rfl
  · rw [if_neg own, if_neg (Ne.symm own)]
    rfl

theorem programGiven {i : Invocation} {performance : Performance} {launch : Launch}
    {shell : Tree → Text.Bytes → Environment → Performance} (direct : w.conduct = .direct shell)
    (found : Launch.find w.tree w.environment i = .ok (.program launch))
    (started : w.performance i = .ok performance) :
    performance.story =
      launch.program.story (Launch.given w.environment i) launch.arguments.length 0 := by
  obtain ⟨_, other, located, same⟩ := Launch.performFound.mp started
  cases found.symm.trans located
  rw [same, direct]
  rfl

theorem unassignedRefused {value : String} (member : value ∈ values .env args)
    (bad : '=' ∉ value.toList ∨ value.toList.head? = some '=') :
    ∃ halt, Arguments.parse environment args = .error halt := by
  cases parsed : Arguments.parse environment args with
  | error halt => exact ⟨halt, rfl⟩
  | ok a =>
    obtain ⟨taken, _⟩ := Arguments.parseValues parsed
    have assigned : Given.assignment? value ∈ a.env.map some := by
      rw [← taken]
      exact List.mem_map_of_mem member
    rw [Given.assignmentNone bad] at assigned
    obtain ⟨_, _, none⟩ := List.mem_map.mp assigned
    cases none

theorem probeSees (w : World) (args : List String) (interrupt : Bool) :
    (∀ a, Arguments.parse w.environment args = .ok a →
      (run w args interrupt = (.broken, w) ∨
        ∃ told, run w args interrupt =
          (.ran (a.request w.environment) a.report (a.made w interrupt).1.result? told,
            (a.made w interrupt).2)) ∧
      let i := (a.request w.environment).invocation
      let given := Launch.given w.environment i
      (∀ performance, w.performance i = .ok performance →
        (∃ found, Launch.find w.tree w.environment i = .ok found ∧
          performance = w.conduct w.tree given found) ∧
        ∀ shell launch, w.conduct = .direct shell →
          Launch.find w.tree w.environment i = .ok (.program launch) →
          performance.story = launch.program.story given launch.arguments.length 0) ∧
      ∀ name, name ≠ "" → '=' ∉ name.toList →
        given.seen? name = (lastAssigned? name ((values .env args).map String.toList)).or
          (if name = "TARGET" then
            some (((values .target args).getLast?.or
              (w.environment.seen? "CFGPROBE_TARGET")).getD "")
          else lastAssigned? name (w.environment.vars.map text)) ∧
        ((∀ v ∈ w.environment.vars, Separable v.1) →
          lastAssigned? name (w.environment.vars.map text) = w.environment.get? name)) ∧
    (∀ value ∈ values .env args, ('=' ∉ value.toList ∨ value.toList.head? = some '=') →
      ∃ halt, run w args interrupt = (.halted halt, w) ∧
        ((∀ word ∈ args, asks word = false) → (Conclusion.halted halt).status ≠ 0)) := by
  refine ⟨?_, ?_⟩
  · intro a accepted
    refine ⟨runAccepted accepted interrupt, fun performance started =>
      ⟨(Launch.performFound.mp started).2, fun _ _ direct found =>
        programGiven direct found started⟩, ?_⟩
    intro name filled plain
    have askable : Askable name := ⟨filled, plain⟩
    exact ⟨givenSees accepted askable, fun separable => Environment.lastUnique separable askable⟩
  · intro value member bad
    obtain ⟨halt, refused⟩ := unassignedRefused member bad
    refine ⟨halt, runRefused refused interrupt, ?_⟩
    intro unasked
    rcases Arguments.parseHalts refused with ⟨m, rfl⟩ | ⟨word, known, asked⟩
    · exact (by decide : 2 ≠ 0)
    · rw [unasked word known] at asked
      cases asked

def asking : Script := ⟨[], [], false, ["A", "TARGET", "B"], false, none, .exits 0⟩

def ambient : World :=
  let environment := .ofList [("A", "x"), ("CFGPROBE_TARGET", "c"), ("TARGET", "t")]
  { World.holding asking with environment }

def ambientArguments : List String := ["--probe", "./p", "-oa", "--env=A=1", "--env", "A=2=3"]

theorem ambientSees :
    let a : Arguments := ⟨"./p", "a", "c", [("A", "1"), ("A", "2=3")], .text⟩
    Arguments.parse ambient.environment ambientArguments = .ok a ∧
    (∃ performance,
      ambient.performance (a.request ambient.environment).invocation = .ok performance ∧
      performance.story.printed .out = Text.encode
        "cargo:rustc-cfg=A=\"2=3\"\ncargo:rustc-cfg=TARGET=\"c\"\ncargo:rustc-cfg=no_B\n") ∧
    ∃ halt, run ambient ["--env", "=x"] false = (.halted halt, ambient) ∧
      (Conclusion.halted halt).status ≠ 0 := by
  intro a
  have accepted : Arguments.parse ambient.environment ambientArguments = .ok a := by cbv
  have started : ∃ performance,
      ambient.performance (a.request ambient.environment).invocation = .ok performance :=
    ⟨_, by cbv⟩
  obtain ⟨performance, started⟩ := started
  have found : Launch.find ambient.tree ambient.environment
      (a.request ambient.environment).invocation = .ok (.program ⟨asking.program, []⟩) := by
    have here : ambient.tree.entry true
        (.ofText (a.request ambient.environment).invocation.program) =
      .ok ⟨1, .file (.program asking.program) 0o755⟩ := by cbv
    exact Launch.findProgram (by cbv) (by cbv) here (by decide)
  obtain ⟨_, performed, sees⟩ := (probeSees ambient ambientArguments false).1 a accepted
  have told := (performed performance started).2 _ _ rfl found
  generalize Launch.given ambient.environment (a.request ambient.environment).invocation = given
    at told sees
  have own : given.seen? "A" = some "2=3" := by
    rw [(sees "A" (by decide) (by decide)).1]
    cbv
  have target : given.seen? "TARGET" = some "c" := by
    rw [(sees "TARGET" (by decide) (by decide)).1]
    cbv
  have unset : given.seen? "B" = none := by
    rw [(sees "B" (by decide) (by decide)).1]
    cbv
  refine ⟨accepted, ⟨performance, started, ?_⟩, ?_⟩
  · rw [told, ← Story.capturedPrinted]
    refine (Script.storyPrints asking given 0 0).trans ?_
    simp only [asking, List.flatMap_cons, List.flatMap_nil, Script.reply, own, target, unset]
    cbv
  · obtain ⟨halt, refused, failed⟩ :=
      (probeSees ambient ["--env", "=x"] false).2 "=x" (by decide) (.inr (by decide))
    exact ⟨halt, refused, failed (by decide)⟩

end BuildProbe.Command
