import BuildProbe.Proofs.Artifact.Readback
import BuildProbe.Proofs.Flag.Positions
import BuildProbe.Proofs.Pipeline.Accounting
import BuildProbe.Proofs.Probe.Supervised
import BuildProbe.Rehearsal

/-!
What a run tells its log. The pipeline's own events open with the run. If the probe failed, one
more tells why, and that is all. Else there is one for each warning, one for the flags that were
selected, and one that closes the log and agrees with what the run returns. So the last line alone
tells how the run ended. What the runner and the writer tell in between is their own affair.
-/
namespace BuildProbe

abbrev Line : Type := String × List (String × String)

def Event.line (e : Event) : Line := (e.message, e.fields)

namespace Stage

def all : List Stage := [.spawn, .wait, .exit, .cancelled, .write]

def ofName? (name : String) : Option Stage := all.find? (·.name = name)

theorem ofNameName (s : Stage) : ofName? s.name = some s := by
  cases s <;> decide

end Stage

namespace Log

def own (told : List Event) : List Event := told.filter (·.component = .pipeline)

def lines (told : List Event) : List Line := (own told).map Event.line

section

variable (request : Request)

def opening : Line :=
  ("Running build probe", [("probe", request.probe), ("output", request.output.text)])

def warning (message : String) : Line :=
  ("probe warning: " ++ message, [("probe", request.probe)])

/- One for each place of a text at which the mark of a warning starts a line, in order. -/
def warnings (printed : String) : List Line :=
  (Directive.warningAt printed).map fun i => warning request (Directive.textAt printed (i + 14))

def selection (captured : Captured) : Line :=
  ("Selected cfg directives", [("probe", request.probe),
    ("flag_count", toString (Directive.flags captured.stdout).length)])

def failure (f : RunFailure) : Line :=
  ("Build probe failed",
    [("probe", request.probe), ("stage", f.stage.name), ("error", f.cause)])

def closing : Except RunFailure Report → Line
  | .ok report => ("Build probe completed", [("probe", report.probe), ("output", report.output),
      ("flag_count", toString report.flags.length), ("outcome", report.outcome.name),
      ("duration_ms", toString report.duration.toInt)])
  | .error (.probe _) => ("Cancelled before artifact write", [("probe", request.probe)])
  | .error (.write cause) => ("Artifact write failed",
      [("output", request.output.text), ("error", cause.message)])

/- The lines of a run, by what the runner answered and what the run returned. -/
inductive Tells : Except ProbeFailure Captured → Except RunFailure Report → List Line → Prop where
  | failed (cause : ProbeFailure) : Tells (.error cause) (.error (.probe cause))
      [opening request, failure request (.probe cause)]
  | selected {captured : Captured} {result : Except RunFailure Report}
      (late : ∀ cause, result = .error (.probe cause) → cause = .cancelled request.probe) :
      Tells (.ok captured) result
        (opening request :: warnings request captured.stdout ++ [selection request captured] ++
          [closing request result])

end

def failedAt : Except RunFailure Report → Option Stage
  | .ok _ => none
  | .error f => some f.stage

def tellsFailure? (last : Line) : Option Stage :=
  if last.1 = "Build probe failed" then (last.2.lookup "stage").bind Stage.ofName?
  else if last.1 = "Cancelled before artifact write" then some .cancelled
  else if last.1 = "Artifact write failed" then some .write
  else none

variable {request : Request}

theorem ownAppend (before after : List Event) : own (before ++ after) = own before ++ own after :=
  List.filter_append ..

theorem ownNothing {told : List Event} (others : ∀ e ∈ told, e.component ≠ .pipeline) :
    own told = [] := by
  refine List.filter_eq_nil_iff.mpr fun e member => ?_
  simpa using others e member

theorem ownAll {told : List Event} (all : ∀ e ∈ told, e.component = .pipeline) :
    own told = told := by
  refine List.filter_eq_self.mpr fun e member => ?_
  simpa using all e member

theorem failureTells (f : RunFailure) : tellsFailure? (failure request f) = some f.stage := by
  have stage : (failure request f).2.lookup "stage" = some f.stage.name := rfl
  simp only [tellsFailure?, stage]
  exact Stage.ofNameName f.stage

theorem closingTells {result : Except RunFailure Report}
    (late : ∀ cause, result = .error (.probe cause) → cause = .cancelled request.probe) :
    tellsFailure? (closing request result) = failedAt result := by
  cases result with
  | ok report => rfl
  | error f =>
    cases f with
    | probe cause =>
      rw [late cause rfl]
      rfl
    | write cause => rfl

theorem tellsLast {answered : Except ProbeFailure Captured} {result : Except RunFailure Report}
    {log : List Line} (tells : Tells request answered result log) :
    ∃ last, log.getLast? = some last ∧ tellsFailure? last = failedAt result := by
  cases tells with
  | failed cause => exact ⟨_, rfl, failureTells _⟩
  | selected late => exact ⟨_, List.getLast?_concat, closingTells late⟩

end Log

namespace Services

/- The runner and the writer tell of themselves, and leave the rest to the pipeline. -/
structure Discreet (services : Services σ) : Prop where
  runner : ∀ i timeline state, ∀ e ∈ (services.probe i timeline state).told,
    e.component ≠ .pipeline
  writer : ∀ p flags state, ∀ e ∈ (services.persist p flags state).told, e.component ≠ .pipeline

variable {services : Services σ} {request : Request}

theorem ownOpening {answered : Answer σ} (quiet : Log.own answered.told = []) :
    Log.own (opening request answered) =
      [.running request.probe request.output.text request.invocation.overrides.vars] := by
  rw [opening, Log.own, List.filter_cons_of_pos (by rfl)]
  exact congrArg (_ :: ·) quiet

theorem ownFindings (captured : Captured) :
    Log.own (findings request captured) = findings request captured := by
  refine Log.ownAll fun e member => ?_
  rcases List.mem_append.mp member with warned | selected
  · obtain ⟨message, _, rfl⟩ := List.mem_map.mp warned
    rfl
  · rw [List.mem_singleton.mp selected]
    rfl

theorem findingsLines (captured : Captured) : (findings request captured).map Event.line =
    Log.warnings request captured.stdout ++ [Log.selection request captured] := by
  rw [findings, List.map_append, List.map_map, Directive.warningsPlaced, List.map_map]
  rfl

theorem selectedLines {answered : Answer σ} {captured : Captured} {told : List Event} {last : Event}
    (quiet : Log.own answered.told = []) (silent : Log.own told = [])
    (closes : last.component = .pipeline) :
    Log.lines (opening request answered ++ findings request captured ++ (told ++ [last])) =
      Log.opening request :: Log.warnings request captured.stdout ++
        [Log.selection request captured] ++ [last.line] := by
  have final : Log.own [last] = [last] := List.filter_cons_of_pos (by simpa using closes)
  rw [Log.lines, Log.ownAppend, Log.ownAppend, Log.ownAppend, ownOpening quiet, ownFindings, silent,
    final, List.map_append, List.map_append, findingsLines]
  simp [Log.opening, Event.line, Event.message, Event.fields]

theorem concludeTells (discreet : services.Discreet) {start : Int64} {heard : Bool}
    {answered : Answer σ} (quiet : Log.own answered.told = [])
    {result : Except RunFailure Report}
    (ended : (services.conclude request start heard answered).1.result? = some result) :
    ∃ answer, answered.result = some answer ∧
      Log.Tells request answer result
        (Log.lines (services.conclude request start heard answered).1.told) := by
  unfold conclude at ended ⊢
  cases said : answered.result with
  | none => simp [said, Run.result?] at ended
  | some answer =>
    refine ⟨answer, rfl, ?_⟩
    cases answer with
    | error cause =>
      simp only [said, Run.result?, Option.some.injEq] at ended ⊢
      subst ended
      rw [Log.lines, Log.ownAppend, ownOpening quiet]
      exact .failed cause
    | ok captured =>
      have written : Log.own (services.delivery request answered captured).told = [] :=
        Log.ownNothing (discreet.writer _ _ _)
      cases heard with
      | true =>
        simp only [said, if_true] at ended ⊢
        cases ended
        rw [← List.append_assoc, ← List.nil_append [Event.cancelled request.probe],
          selectedLines quiet rfl rfl]
        exact .selected fun cause same => by cases same; rfl
      | false =>
        simp only [said, Bool.false_eq_true, if_false] at ended ⊢
        cases kept : (services.delivery request answered captured).result with
        | error cause =>
          simp only [kept] at ended ⊢
          cases ended
          rw [selectedLines quiet written rfl]
          exact .selected fun _ => nofun
        | ok outcome =>
          simp only [kept] at ended ⊢
          cases ended
          rw [List.append_assoc _ _ [_], selectedLines quiet written rfl]
          exact .selected fun _ => nofun

theorem reportedCalls {timeline : Timeline} {state : σ} {report : Report}
    (done : (services.run request timeline state).1.result? = some (.ok report)) :
    ∃ flags, services.calls request timeline state = [(request.output, flags)] ∧
      report.flags = flags.map Flag.display ∧
      (Artifact.render flags).toList.count '\n' = report.flags.length := by
  have ends := services.runEnds request timeline state
  rw [done] at ends
  generalize (services.run request timeline state).2 = after at ends
  cases ends with
  | @reported captured outcome said missing kept =>
    refine ⟨Directive.flags captured.stdout, ?_, rfl, ?_⟩
    · rw [callsAnswered, callsAfter, said, missing]
      rfl
    · rw [Artifact.feedsExact (Directive.flagsPlain captured.stdout)]
      exact (List.length_map _).symm

end Services

theorem World.servicesDiscreet (m : Mishaps) (disk : Disk) :
    (World.servicesUnder m disk).Discreet where
  runner i timeline w e member := by
    have runner : e.component = .runner := by
      change e ∈ (Course.of (w.story i) m i.program w.grace timeline).told at member
      unfold Course.of at member
      split at member
      · cases member
      · cases launched : w.story i with
        | error why =>
          rw [launched] at member
          cases member
        | ok story =>
          rw [launched] at member
          exact story.courseTold m i.program w.grace timeline e member
    rw [runner]
    decide
  writer p flags w e member := by
    change e ∈ (World.persistUnder disk p flags w).told at member
    unfold World.persistUnder at member
    cases result : (w.tree.persist w.site disk p flags).2 with
    | ok outcome =>
      simp only [result, List.mem_singleton] at member
      rw [member]
      exact nofun
    | error cause =>
      simp only [result] at member
      cases member

theorem Rehearsal.servicesDiscreet : Rehearsal.services.Discreet where
  runner _ _ _ _ member := nomatch member
  writer _ _ _ _ member := nomatch member

theorem logTells :
    (∀ m disk, (World.servicesUnder m disk).Discreet) ∧
    ∀ {σ : Type} {services : Services σ}, services.Discreet →
      ∀ {request : Request} {timeline : Timeline} {state : σ} {result : Except RunFailure Report},
      (services.run request timeline state).1.result? = some result →
      let log := Log.lines (services.run request timeline state).1.told
      (∃ answered, (services.answer request timeline state).result = some answered ∧
        Log.Tells request answered result log) ∧
      (∃ last, log.getLast? = some last ∧ Log.tellsFailure? last = Log.failedAt result) ∧
      ∀ report, result = .ok report →
        ∃ flags, services.calls request timeline state = [(request.output, flags)] ∧
          report.flags = flags.map Flag.display ∧
          (Artifact.render flags).toList.count '\n' = report.flags.length := by
  refine ⟨World.servicesDiscreet, ?_⟩
  intro σ services discreet request timeline state result ended
  have quiet : Log.own (services.answer request timeline state).told = [] :=
    Log.ownNothing (discreet.runner _ _ _)
  rw [Services.runConcludes] at ended
  obtain ⟨answered, said, tells⟩ := Services.concludeTells discreet quiet ended
  rw [← Services.runConcludes] at ended tells
  refine ⟨⟨answered, said, tells⟩, Log.tellsLast tells, ?_⟩
  rintro report rfl
  exact Services.reportedCalls ended

theorem rehearsedTells :
    let request : Request := ⟨.new "p", .ofText "o"⟩
    let plays (part : Part) : Rehearsal := ⟨part, [], .empty none, ⟨0, 5⟩⟩
    let told (part : Part) := (Rehearsal.services.run request .quiet (plays part)).1.told
    let prints : Part :=
      .prints "cargo:warning=v\ncargo:rustc-cfg=x\n cargo:warning=u\ncargo:warning=w"
    let log := Log.lines (told prints)
    ((∃ answered, (Rehearsal.services.answer request .quiet (plays prints)).result = some answered ∧
        Log.Tells request answered (.ok ⟨"p", "o", ["--cfg=x"], .written, 5⟩) log) ∧
      log = [("Running build probe", [("probe", "p"), ("output", "o")]),
        ("probe warning: v", [("probe", "p")]), ("probe warning: w", [("probe", "p")]),
        ("Selected cfg directives", [("probe", "p"), ("flag_count", "1")]),
        ("Build probe completed", [("probe", "p"), ("output", "o"), ("flag_count", "1"),
          ("outcome", "WRITTEN"), ("duration_ms", "5")])] ∧
      (∃ last, log.getLast? = some last ∧ Log.tellsFailure? last = none) ∧
      ∃ flags, Rehearsal.services.calls request .quiet (plays prints) = [(request.output, flags)] ∧
        ["--cfg=x"] = flags.map Flag.display ∧ (Artifact.render flags).toList.count '\n' = 1) ∧
    ∃ last, (Log.lines (told (.exits 3))).getLast? = some last ∧
      Log.tellsFailure? last = some .exit := by
  intro request plays told prints log
  have done : (Rehearsal.services.run request .quiet (plays prints)).1.result? =
      some (.ok ⟨"p", "o", ["--cfg=x"], .written, 5⟩) := by cbv
  have failed : (Rehearsal.services.run request .quiet (plays (.exits 3))).1.result? =
      some (.error (.probe (.nonZeroExit "p" (some 3) ""))) := by cbv
  obtain ⟨tells, last, artifact⟩ := logTells.2 Rehearsal.servicesDiscreet done
  refine ⟨⟨tells, ?_, last, artifact _ rfl⟩, (logTells.2 Rehearsal.servicesDiscreet failed).2.1⟩
  change Log.lines (Rehearsal.services.run request .quiet (plays prints)).1.told = _
  cbv

end BuildProbe
