import BuildProbe.Proofs.Artifact.Persisting
import BuildProbe.Proofs.Pipeline.Ending
import BuildProbe.Proofs.Probe.Supervised
import BuildProbe.World
import Mathlib

/-!
What a report guarantees. A run that reports success has read all that its probe printed, names
the flags that this asks for, and has persisted them one a line, in a tree that is otherwise the
one that the probe left. What a probe itself does to the tree is not the run's affair.
-/
namespace BuildProbe

open Text (Bytes)

theorem Artifact.renderLines (flags : List Flag) :
    render flags = String.join ((flags.map Flag.display).map fun line => line ++ "\n") := by
  rw [← String.toList_inj]
  simp [render, List.flatMap_map]

def Report.artifact (r : Report) : Bytes :=
  Text.encode (String.join (r.flags.map fun line => line ++ "\n"))

namespace World

variable {w : World} {m : Mishaps} {disk : Disk} {request : Request} {timeline : Timeline}
  {report : Report}

theorem deliveryPersisted (m : Mishaps) (disk : Disk) (request : Request)
    (answered : Services.Answer World) (captured : Captured) :
    Tree.Persisted disk answered.state.tree
      ((servicesUnder m disk).delivery request answered captured).state.tree
      request.output (Text.encode (Artifact.render (Directive.flags captured.stdout)))
      ((servicesUnder m disk).delivery request answered captured).result :=
  Tree.persistPersisted rfl

theorem reportPersisted
    (done : ((servicesUnder m disk).run request timeline w).1.result? = some (.ok report)) :
    Tree.Persisted disk (w.leftBy request.invocation timeline)
      ((servicesUnder m disk).run request timeline w).2.tree request.output report.artifact
      (.ok report.outcome) := by
  obtain ⟨captured, outcome, said, kept, rfl, last⟩ :=
    (servicesUnder m disk).runReported request done
  have persisted := deliveryPersisted m disk request
    ((servicesUnder m disk).answer request timeline w) captured
  rw [kept, Artifact.renderLines] at persisted
  rw [last]
  exact persisted

theorem runDelivers
    (done : ((servicesUnder m disk).run request timeline w).1.result? = some (.ok report)) :
    (∃ story, w.story request.invocation = .ok story ∧ report.flags =
      (Directive.flags (Text.decode (story.printed .out))).map Flag.display) ∧
    Tree.Persisted disk (w.leftBy request.invocation timeline)
      ((servicesUnder m disk).run request timeline w).2.tree request.output report.artifact
      (.ok report.outcome) := by
  refine ⟨?_, reportPersisted done⟩
  obtain ⟨captured, outcome, said, _, rfl, _⟩ := (servicesUnder m disk).runReported request done
  obtain ⟨_, story, launched, same⟩ := Course.courseOk said
  refine ⟨story, launched, ?_⟩
  rw [← Story.capturedPrinted]
  have printed : captured.stdout = story.stdout := congrArg Captured.stdout same
  exact congrArg (fun printed => (Directive.flags printed).map Flag.display) printed

theorem runSame {request' : Request} (output : request.output = request'.output)
    (program : request.probe = request'.probe)
    (same : w.performance request.invocation = w.performance request'.invocation) :
    ((servicesUnder m disk).run request timeline w).1.result? =
        ((servicesUnder m disk).run request' timeline w).1.result? ∧
      ((servicesUnder m disk).run request timeline w).2 =
        ((servicesUnder m disk).run request' timeline w).2 := by
  have answered : (servicesUnder m disk).answer request timeline w =
      (servicesUnder m disk).answer request' timeline w := by
    change probeUnder m request.invocation timeline { w with clock := w.clock.read.2 } =
      probeUnder m request'.invocation timeline { w with clock := w.clock.read.2 }
    have same : World.performance { w with clock := w.clock.read.2 } request.invocation =
      World.performance { w with clock := w.clock.read.2 } request'.invocation := same
    have program : request.invocation.program = request'.invocation.program := program
    unfold probeUnder World.course World.stuck? World.leftBy World.story
    rw [same, program]
  rw [Services.runConcludes, Services.runConcludes, answered]
  exact Services.concludeSame _ _ _ _ output program

def directive : Script :=
  ⟨Text.encode "cargo:rustc-cfg=x\n", [], false, [], false, none, .exits 0⟩

def single : World := holding directive

def toSingle (output : String) : Request := ⟨.new "./p", .ofText output⟩

theorem singleDelivers :
    let report : Report := ⟨"./p", "a/b", ["--cfg=x"], .written, 0⟩
    (services.run (toSingle "a/b") .quiet single).1.result? = some (.ok report) ∧
    (∃ story, single.story (.new "./p") = .ok story ∧
      story.printed .out = Text.encode "cargo:rustc-cfg=x\n") ∧
    Tree.Persisted .sound single.tree (services.run (toSingle "a/b") .quiet single).2.tree
      (.ofText "a/b") report.artifact (.ok .written) := by
  intro report
  have done : (services.run (toSingle "a/b") .quiet single).1.result? = some (.ok report) := by
    cbv
  have told : (single.story (.new "./p")).map (·.printed .out) =
      .ok (Text.encode "cargo:rustc-cfg=x\n") := by cbv
  have left : single.leftBy (.new "./p") .quiet = single.tree := by cbv
  have done' : ((servicesUnder .none .sound).run (toSingle "a/b") .quiet single).1.result? =
      some (.ok report) := done
  obtain ⟨⟨story, started, _⟩, persisted⟩ := runDelivers done'
  have started' : single.story (.new "./p") = .ok story := started
  rw [started'] at told
  exact ⟨done, ⟨story, started', Except.ok.inj told⟩, left ▸ persisted⟩

def linked : World :=
  let t := (single.tree.add ⟨Tree.root, "d"⟩ .directory).add ⟨Tree.root, "l"⟩ (.link (.ofText "d"))
  { single with tree := t }

def untidy (name : String) (ending : Ending) : World :=
  { single with
    conduct := fun t _ _ =>
      ⟨⟨[], none, ending⟩, t.add ⟨Tree.root, name⟩ (.file (.data []) 0o644)⟩ }

theorem linkedRun :
    let after := (services.run (toSingle "l/../l") .quiet linked).2
    ((services.run (toSingle "l/../l") .quiet linked).1.result? =
        some (.ok ⟨"./p", "l/../l", ["--cfg=x"], .written, 0⟩) ∧
      after.tree.read (.ofText "l/../l") = .error (.system .notADirectory)) ∧
    after.tree.entry true (.ofText "./p") = .ok ⟨1, .file (.program directive.program) 0o755⟩ ∧
    (services.run (toSingle "l/../l") .quiet after).1.result? =
      some (.error (.write ⟨"l/../l", "Not a directory (os error 20)"⟩)) := by
  have ran : ((services.run (toSingle "l/../l") .quiet linked).1.result?,
      (services.run (toSingle "l/../l") .quiet linked).2.tree.read (.ofText "l/../l")) =
    (some (.ok ⟨"./p", "l/../l", ["--cfg=x"], .written, 0⟩), .error (.system .notADirectory)) := by
    cbv
  have again : ((services.run (toSingle "l/../l") .quiet linked).2.tree.entry true (.ofText "./p"),
      (services.run (toSingle "l/../l") .quiet
        (services.run (toSingle "l/../l") .quiet linked).2).1.result?) =
    (.ok ⟨1, .file (.program directive.program) 0o755⟩,
      some (.error (.write ⟨"l/../l", "Not a directory (os error 20)"⟩))) := by
    cbv
  exact ⟨Prod.mk.inj ran, Prod.mk.inj again⟩

theorem deliveredElsewhere :
    ((services.run (toSingle "l/../l") .quiet linked).1.result? =
        some (.ok ⟨"./p", "l/../l", ["--cfg=x"], .written, 0⟩) ∧
      (services.run (toSingle "l/../l") .quiet linked).2.tree.read (.ofText "l/../l") =
        .error (.system .notADirectory)) ∧
    (services.run (toSingle "out") .quiet (untidy "f" (.exits 0))).1.result? =
        some (.ok ⟨"./p", "out", [], .written, 0⟩) ∧
      (untidy "f" (.exits 0)).tree.get? ⟨Tree.root, "f"⟩ = none ∧
      (services.run (toSingle "out") .quiet (untidy "f" (.exits 0))).2.tree.read (.ofText "f") =
        .ok [] := by
  have ran : ((services.run (toSingle "out") .quiet (untidy "f" (.exits 0))).1.result?,
      (services.run (toSingle "out") .quiet (untidy "f" (.exits 0))).2.tree.read (.ofText "f")) =
      (some (.ok ⟨"./p", "out", [], .written, 0⟩), .ok []) := by cbv
  exact ⟨linkedRun.1, congrArg Prod.fst ran, by cbv, congrArg Prod.snd ran⟩

end World
end BuildProbe
