import BuildProbe.Proofs.Artifact.Resemblance
import BuildProbe.Proofs.Probe.Resemblance
import BuildProbe.Proofs.World.Delivery

/-!
The standard error counts for nothing. When two probes differ only in what they write there, and
in when, their runs come to the same: the same report or the same failure, the same warnings, the
same artifact, in trees that differ in nothing but the probes themselves. What was written to the
standard error is seen in the tail of it that a failure carries, in the log, and nowhere else.
-/
namespace BuildProbe

def bareResult : Except RunFailure Report → Except RunFailure Report
  | .ok report => .ok { report with duration := 0 }
  | .error (.probe cause) => .error (.probe cause.bare)
  | .error (.write cause) => .error (.write cause)

def Event.isWarning : Event → Bool
  | .probeWarning .. => true
  | _ => false

def warned (told : List Event) : List Event := told.filter Event.isWarning

theorem warnedBare (told : List Event) : warned (bareLog told) = warned told := by
  unfold warned bareLog
  induction told with
  | nil => rfl
  | cons e told ih =>
    cases e with
    | probeWarning probe message => exact congrArg (.probeWarning probe message :: ·) ih
    | _ => exact ih

/- What probes do that differ in what they write to the standard error, as far as it can matter to
a run to this output. -/
structure Performance.Resembles (differ : Content → Content → Prop) (output : Path)
    (p p' : Performance) : Prop where
  story : p.story.Resembles p'.story
  trees : p.tree.Resembles differ p'.tree
  read : p.tree.read output = p'.tree.read output

theorem Launch.performResembles {t t' : Tree} (like : t.Resembles Content.Resembles t')
    (shell shell' : Tree → Text.Bytes → Environment → Performance) (ambient : Environment)
    (i : Invocation) (output : Path) (program : ∀ path, find t ambient i ≠ .ok (.script path)) :
    Tallies (Performance.Resembles Content.Resembles output)
      (perform (.direct shell) t ambient i) (perform (.direct shell') t' ambient i) := by
  have finds := findResembles like ambient i
  unfold perform
  cases unpassable i with
  | true => exact .error _
  | false =>
    generalize find t ambient i = found at finds program
    generalize find t' ambient i = found' at finds
    cases finds with
    | error why => exact .error _
    | ok same =>
      cases same with
      | script path => exact absurd rfl (program path)
      | @program l l' launches =>
        obtain ⟨arguments, alike⟩ := launches
        refine .ok ⟨?_, like, Tree.readResembles like Content.resemblesBytes output⟩
        simp only [Conduct.direct, arguments]
        exact alike _ _ _

namespace World

/- Two worlds that a request finds the same, but for what the probe writes to the standard error.
Either some programs in them differ in that, or else whatever is started does, be it a text that
the shell makes sense of, and the destination is not one of the files that make the difference. -/
inductive Twins (request : Request) : (Content → Content → Prop) → World → World → Prop where
  | programs {w w' : World} {shell shell'} (environment : w.environment = w'.environment)
      (grace : w.grace = w'.grace) (site : w.site = w'.site)
      (direct : w.conduct = .direct shell) (direct' : w'.conduct = .direct shell')
      (trees : w.tree.Resembles Content.Resembles w'.tree)
      (program : ∀ path, Launch.find w.tree w.environment request.invocation ≠ .ok (.script path)) :
      Twins request Content.Resembles w w'
  | performances {w w' : World} {differ : Content → Content → Prop} (grace : w.grace = w'.grace)
      (site : w.site = w'.site) (trees : w.tree.Resembles differ w'.tree)
      (alike : Tallies (Performance.Resembles differ request.output)
        (w.performance request.invocation) (w'.performance request.invocation)) :
      Twins request differ w w'

structure Concur (differ : Content → Content → Prop) (output : Path) (ran ran' : Run × World) :
    Prop where
  result : ran.1.result?.map bareResult = ran'.1.result?.map bareResult
  log : bareLog ran.1.told = bareLog ran'.1.told
  warnings : warned ran.1.told = warned ran'.1.told
  trees : ran.2.tree.Resembles differ ran'.2.tree
  artifact : ∀ report, ran.1.result? = some (.ok report) →
    ran.2.tree.read output = ran'.2.tree.read output
  aftermath : ran.2.aftermath = ran'.2.aftermath

structure AnswersAlike (differ : Content → Content → Prop) (output : Path)
    (answered answered' : Services.Answer World) : Prop where
  result : Option.Rel Verdict.Resembles answered.result answered'.result
  told : bareLog answered.told = bareLog answered'.told
  trees : answered.state.tree.Resembles differ answered'.state.tree
  read : ∀ captured, answered.result = some (.ok captured) →
    answered.state.tree.read output = answered'.state.tree.read output
  aftermath : answered.state.aftermath = answered'.state.aftermath
  site : answered.state.site = answered'.state.site

variable {differ : Content → Content → Prop} {request : Request} {w w' : World} {m : Mishaps}
  {disk : Disk}

theorem twinsPerform (twins : Twins request differ w w') :
    w.grace = w'.grace ∧ w.site = w'.site ∧ w.tree.Resembles differ w'.tree ∧
      Tallies (Performance.Resembles differ request.output) (w.performance request.invocation)
        (w'.performance request.invocation) := by
  cases twins with
  | performances grace site trees alike => exact ⟨grace, site, trees, alike⟩
  | programs environment grace site direct direct' trees program =>
    refine ⟨grace, site, trees, ?_⟩
    unfold performance
    rw [← environment, direct, direct']
    exact Launch.performResembles trees _ _ _ _ _ program

theorem storiesResemble {i : Invocation} {output : Path}
    (alike : Tallies (Performance.Resembles differ output) (w.performance i) (w'.performance i)) :
    Tallies Story.Resembles (w.story i) (w'.story i) :=
  talliesMap (f := Performance.story) (fun like => like.story) alike

theorem stuckAlike (twins : Twins request differ w w') :
    w.stuck? request.invocation = w'.stuck? request.invocation := by
  obtain ⟨_, _, _, alike⟩ := twinsPerform twins
  have stories := storiesResemble alike
  unfold stuck?
  generalize w.story request.invocation = told at stories
  generalize w'.story request.invocation = told' at stories
  cases stories with
  | ok same => exact Story.stuckResembles same
  | error why => rfl

theorem leftResembles {i : Invocation} {output : Path} (trees : w.tree.Resembles differ w'.tree)
    (alike : Tallies (Performance.Resembles differ output) (w.performance i) (w'.performance i))
    (timeline : Timeline) :
    (w.leftBy i timeline).Resembles differ (w'.leftBy i timeline) ∧
      ∀ captured, (Course.of (w.story i) m i.program w.grace timeline).result = some (.ok captured) →
        (w.leftBy i timeline).read output = (w'.leftBy i timeline).read output := by
  unfold leftBy story
  generalize w.performance i = performed at alike
  generalize w'.performance i = performed' at alike
  cases heard : timeline.heardBy .ahead with
  | true =>
    -- Nothing has been started, so there is nothing to deliver.
    refine ⟨trees, fun captured done => ?_⟩
    have unheard := (Course.courseOk done).1
    cases heard.symm.trans unheard
  | false =>
    cases alike with
    | ok same => exact ⟨same.trees, fun _ _ => same.read⟩
    | error why =>
      refine ⟨trees, fun captured done => ?_⟩
      obtain ⟨_, story, launched, _⟩ := Course.courseOk done
      cases launched

theorem aftermathAlike (w w' : World) {i : Invocation} {timeline : Timeline}
    (stuck : w.stuck? i = w'.stuck? i)
    (process : (w.course m i timeline).process = (w'.course m i timeline).process) :
    (probeUnder m i timeline w).state.aftermath = (probeUnder m i timeline w').state.aftermath := by
  unfold probeUnder
  dsimp only
  rw [stuck, process]

theorem answersAlike (twins : Twins request differ w w') (timeline : Timeline) :
    AnswersAlike differ request.output ((servicesUnder m disk).answer request timeline w)
      ((servicesUnder m disk).answer request timeline w') := by
  obtain ⟨grace, site, trees, alike⟩ := twinsPerform twins
  obtain ⟨left, read⟩ := leftResembles trees alike timeline
  have course : (w.course m request.invocation timeline).Resembles
      (w'.course m request.invocation timeline) := by
    unfold World.course
    rw [← grace]
    exact Course.ofResembles (storiesResemble alike) ..
  have stuck := stuckAlike twins
  exact ⟨course.result, course.told, left, read,
    aftermathAlike { w with clock := w.clock.read.2 } { w' with clock := w'.clock.read.2 }
      stuck course.process, site⟩

theorem deliveriesResemble {answered answered' : Services.Answer World}
    {captured captured' : Captured} (stdout : captured.stdout = captured'.stdout)
    (trees : answered.state.tree.Resembles differ answered'.state.tree)
    (read : answered.state.tree.read request.output = answered'.state.tree.read request.output)
    (site : answered.state.site = answered'.state.site) :
    let delivered := (servicesUnder m disk).delivery request answered captured
    let delivered' := (servicesUnder m disk).delivery request answered' captured'
    delivered.result = delivered'.result ∧ delivered.told = delivered'.told ∧
      delivered.state.tree.Resembles differ delivered'.state.tree := by
  obtain ⟨same, after⟩ := Tree.persistResembles trees read answered.state.site disk
    (Directive.flags captured.stdout)
  have flags : Directive.flags captured'.stdout = Directive.flags captured.stdout := by
    rw [stdout]
  simp only [Services.delivery, servicesUnder, persistUnder, flags, ← site, same]
  exact ⟨trivial, trivial, after⟩

theorem persistedReads {disk : Disk} {before before' after after' : Tree} {p : Path}
    {bytes : Text.Bytes} {outcome outcome' : Outcome}
    (persisted : Tree.Persisted disk before after p bytes (.ok outcome))
    (persisted' : Tree.Persisted disk before' after' p bytes (.ok outcome'))
    (trees : after.Resembles differ after') : after.read p = after'.read p := by
  have reads := Tree.readTallies trees (fun _ _ => True) (fun _ => trivial) (fun _ => trivial) p
  rcases persisted.reads with read | ⟨read, _⟩
  · rcases persisted'.reads with read' | ⟨read', _⟩
    · rw [read, read']
    · rw [read, read'] at reads
      cases reads
  · rcases persisted'.reads with read' | ⟨read', _⟩
    · rw [read, read'] at reads
      cases reads
    · rw [read, read']

theorem concurLogged {ran ran' : Run × World} {output : Path}
    (result : ran.1.result?.map bareResult = ran'.1.result?.map bareResult)
    (log : bareLog ran.1.told = bareLog ran'.1.told)
    (trees : ran.2.tree.Resembles differ ran'.2.tree)
    (artifact : ∀ report, ran.1.result? = some (.ok report) →
      ran.2.tree.read output = ran'.2.tree.read output)
    (aftermath : ran.2.aftermath = ran'.2.aftermath) : Concur differ output ran ran' := by
  refine ⟨result, log, ?_, trees, artifact, aftermath⟩
  rw [← warnedBare, log, warnedBare]

theorem concludeConcurs {answered answered' : Services.Answer World}
    (alike : AnswersAlike differ request.output answered answered') (start start' : Int64)
    (heard : Bool) :
    Concur differ request.output ((servicesUnder m disk).conclude request start heard answered)
      ((servicesUnder m disk).conclude request start' heard answered') := by
  obtain ⟨result, told, trees, read, aftermath, site⟩ := alike
  have opening : bareLog (Services.opening request answered) =
      bareLog (Services.opening request answered') := by
    unfold Services.opening
    rw [← List.singleton_append, ← List.singleton_append (l := answered'.told), bareAppend,
      bareAppend, told]
  unfold Services.conclude
  generalize answered.result = answer at result read ⊢
  generalize answered'.result = answer' at result ⊢
  cases result with
  | none => exact concurLogged rfl opening trees (fun _ done => by cases done) aftermath
  | some verdicts =>
    cases verdicts with
    | @error cause cause' bare =>
      refine concurLogged ?_ ?_ trees (fun _ done => by cases done) aftermath
      · simp only [Run.result?, Option.map_some, bareResult, bare]
      · simp only [bareAppend, opening]
        simp only [bareLog, List.filterMap_cons, Event.bare?, bare, List.filterMap_nil]
    | @ok captured captured' stdout status =>
      -- What the pipeline makes of an answer, it makes of the standard output alone.
      have findings : Services.findings request captured = Services.findings request captured' := by
        simp only [Services.findings, stdout]
      dsimp only
      split
      · refine concurLogged rfl ?_ trees (fun _ done => by cases done) aftermath
        simp only [bareAppend, opening, findings]
      · obtain ⟨same, written, after⟩ :=
          deliveriesResemble stdout trees (read captured rfl) site
        have persisted := deliveryPersisted m disk request answered captured
        have persisted' := deliveryPersisted m disk request answered' captured'
        rw [← same, ← stdout] at persisted'
        rw [← same]
        generalize ((servicesUnder m disk).delivery request answered captured).result = kept
          at persisted persisted'
        cases kept with
        | error cause =>
          refine concurLogged rfl ?_ after (fun _ done => by cases done) aftermath
          simp only [bareAppend, opening, findings, written]
        | ok outcome =>
          refine concurLogged ?_ ?_ after ?_ aftermath
          · simp only [Run.result?, Option.map_some, bareResult, Services.account, stdout]
          · simp only [bareAppend, opening, findings, written, Services.account, stdout]
            rfl
          · intro _ _
            exact persistedReads persisted persisted' after

theorem errorsInert (twins : Twins request differ w w') :
    (∀ m disk timeline, Concur differ request.output
      ((servicesUnder m disk).run request timeline w)
      ((servicesUnder m disk).run request timeline w')) ∧
    ∀ plan, Concur differ request.output (w.run request plan) (w'.run request plan) := by
  have runs (m : Mishaps) (disk : Disk) (timeline : Timeline) : Concur differ request.output
      ((servicesUnder m disk).run request timeline w)
      ((servicesUnder m disk).run request timeline w') := by
    rw [Services.runConcludes, Services.runConcludes]
    exact concludeConcurs (answersAlike twins timeline) ..
  refine ⟨runs, fun plan => ?_⟩
  unfold run
  rw [stuckAlike twins]
  exact runs .none .sound _

theorem holdingTwins {script script' : Script} (like : script.Resembles script') (output : String) :
    Twins (toSingle output) Content.Resembles (holding script) (holding script') := by
  refine .programs rfl rfl rfl rfl rfl ?_ ?_
  · exact Tree.insertResembles (Tree.resemblesRefl _ _)
      (.file _ _ (.program (Script.programResembles like))) _
  · intro path found
    cases Launch.findScript found

def noisy (ending : Ending) : Script :=
  ⟨Text.encode "cargo:warning=w\ncargo:rustc-cfg=x\n", Text.encode "cargo:rustc-cfg=y\n", true, [],
    false, some ([], [0xFF]), ending⟩

def calm (ending : Ending) : Script :=
  ⟨Text.encode "cargo:warning=w\ncargo:rustc-cfg=x\n", [], false, [], false, some ([], []), ending⟩

theorem noisyAsCalm :
    let ran (script : Script) := services.run (toSingle "out") .quiet (holding script)
    ((ran (noisy (.exits 0))).1.result? = some (.ok ⟨"./p", "out", ["--cfg=x"], .written, 0⟩) ∧
      Concur Content.Resembles (toSingle "out").output (ran (noisy (.exits 0)))
        (ran (calm (.exits 0)))) ∧
    ((ran (noisy (.exits 3))).1.result? = some (.error (.probe
        (.nonZeroExit "./p" (some 3) "cargo:rustc-cfg=y\n\uFFFD"))) ∧
      Concur Content.Resembles (toSingle "out").output (ran (noisy (.exits 3)))
        (ran (calm (.exits 3)))) := by
  intro ran
  have like (ending : Ending) : (noisy ending).Resembles (calm ending) := ⟨rfl, rfl, rfl, rfl, rfl⟩
  have concur (ending : Ending) : Concur Content.Resembles (toSingle "out").output
      (ran (noisy ending)) (ran (calm ending)) :=
    (errorsInert (holdingTwins (like ending) "out")).1 .none .sound .quiet
  have done : (services.run (toSingle "out") .quiet (holding (noisy (.exits 0)))).1.result? =
      some (.ok ⟨"./p", "out", ["--cfg=x"], .written, 0⟩) := by
    cbv
  have failed : (services.answer (toSingle "out") .quiet (holding (noisy (.exits 3)))).result =
      some (.error (.nonZeroExit "./p" (some 3) "cargo:rustc-cfg=y\n\uFFFD")) := by
    cbv
  refine ⟨⟨done, concur _⟩, ?_, concur _⟩
  simp only [ran, Services.runConcludes, Services.conclude, failed]
  rfl

end World
end BuildProbe
