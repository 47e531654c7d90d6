import BuildProbe.Proofs.Artifact.Harmless
import BuildProbe.Proofs.World.Delivery

/-!
Histories of runs to one path, with any probes, environments and signals, and whatever the system
refuses to the runner and to the writer. A run that fails before the writer is asked leaves the
tree as its probe left it, and one whose writer fails, at whatever step, adds only directories on
the way. So what the last successful run has put at the path stays there, and where no run
succeeded, everything is as it was and at most such directories have been added. That is said of
histories whose probes write no files of their own, for those can do anything to either.
-/
namespace BuildProbe

open Text (Bytes)

/- One run of a history: the probe that it asks for, and the circumstances that it meets. -/
structure Errand where
  invocation : Invocation
  environment : Environment
  conduct : Conduct
  grace : Nat
  site : Site
  timeline : Timeline
  mishaps : Mishaps
  disk : Disk

def Errand.plain (conduct : Conduct) (program : String) : Errand :=
  ⟨.new program, .empty, conduct, defaultGrace, .standard, .quiet, .none, .sound⟩

def Conduct.prints (line : String) : Conduct := fun t _ _ =>
  ⟨⟨[⟨.out, Text.encode (line ++ "\n")⟩], none, .exits 0⟩, t⟩

structure Episode where
  errand : Errand
  met : World
  result : Option (Except RunFailure Report)
  after : World

namespace Episode

def left (e : Episode) : Tree := e.met.leftBy e.errand.invocation e.errand.timeline

def Tidy (e : Episode) : Prop := e.left = e.met.tree

def Failed (e : Episode) : Prop := ∀ report, e.result ≠ some (.ok report)

end Episode

namespace World

def meet (w : World) (e : Errand) : World :=
  { w with environment := e.environment, conduct := e.conduct, grace := e.grace, site := e.site }

def episode (w : World) (output : Path) (e : Errand) : Episode :=
  let served := (servicesUnder e.mishaps e.disk).run ⟨e.invocation, output⟩ e.timeline (w.meet e)
  ⟨e, w.meet e, served.1.result?, served.2⟩

def episodes (output : Path) : World → List Errand → List Episode
  | _, [] => []
  | w, e :: rest => w.episode output e :: episodes output (w.episode output e).after rest

def afterAll (output : Path) : World → List Errand → World
  | w, [] => w
  | w, e :: rest => afterAll output (w.episode output e).after rest

theorem episodeMade {output : Path} {w : World} {errands : List Errand} {e : Episode}
    (made : e ∈ w.episodes output errands) : ∃ before errand, e = episode before output errand := by
  induction errands generalizing w with
  | nil => cases made
  | cons errand rest ih =>
    rcases List.mem_cons.mp made with first | later
    · exact ⟨w, errand, first⟩
    · exact ih later

theorem episodesSplit {output : Path} {w : World} {errands : List Errand} {e : Episode}
    {earlier later : List Episode} (split : w.episodes output errands = earlier ++ e :: later) :
    ∃ rest, later = e.after.episodes output rest ∧
      w.afterAll output errands = e.after.afterAll output rest := by
  induction errands generalizing w earlier with
  | nil => cases earlier <;> cases split
  | cons errand rest ih =>
    cases earlier with
    | nil =>
      cases split
      exact ⟨rest, rfl, rfl⟩
    | cons first earlier =>
      obtain ⟨_, others⟩ := List.cons.inj split
      exact ih others

theorem episodeKept {w : World} {output : Path} {errand : Errand} {failure : RunFailure}
    (failed : (w.episode output errand).result = some (.error failure))
    (unwritten : failure.stage ≠ .write) :
    (w.episode output errand).after.tree = (w.episode output errand).left := by
  have missing : (w.episode output errand).Failed := by
    intro report done
    rw [failed] at done
    cases done
  rcases (servicesUnder errand.mishaps errand.disk).runUnreported ⟨errand.invocation, output⟩
    missing with left | ⟨_, _, ended, _⟩
  · exact congrArg World.tree left
  · have same := failed.symm.trans ended
    cases same
    exact absurd rfl unwritten

theorem episodeSpawned {w : World} {output : Path} {errand : Errand} {failure : RunFailure}
    (failed : (w.episode output errand).result = some (.error failure))
    (spawn : failure.stage = .spawn) :
    (w.episode output errand).left = (w.episode output errand).met.tree := by
  have ends := (servicesUnder errand.mishaps errand.disk).runEnds ⟨errand.invocation, output⟩
    errand.timeline (w.meet errand)
  have ended : ((servicesUnder errand.mishaps errand.disk).run ⟨errand.invocation, output⟩
    errand.timeline (w.meet errand)).1.result? = some (.error failure) := failed
  rw [ended] at ends
  generalize ((servicesUnder errand.mishaps errand.disk).run ⟨errand.invocation, output⟩
    errand.timeline (w.meet errand)).2 = after at ends
  cases ends with
  | failed said =>
    obtain ⟨why, refused⟩ := Course.courseSpawn said spawn
    exact leftRefused refused _
  | cancelled => cases spawn
  | unwritten => cases spawn

theorem episodePaved {w : World} {output : Path} {errand : Errand}
    (failed : (w.episode output errand).Failed) :
    (w.episode output errand).left.Paved (w.episode output errand).after.tree output := by
  rcases (servicesUnder errand.mishaps errand.disk).runUnreported ⟨errand.invocation, output⟩
    failed with left | ⟨captured, cause, _, refused, last⟩
  · have same : (w.episode output errand).after.tree = (w.episode output errand).left :=
      congrArg World.tree left
    rw [same]
    exact Tree.pavedRefl _ _
  · have persisted := deliveryPersisted errand.mishaps errand.disk ⟨errand.invocation, output⟩
      ((servicesUnder errand.mishaps errand.disk).answer ⟨errand.invocation, output⟩
        errand.timeline (w.meet errand)) captured
    rw [refused, ← last] at persisted
    cases persisted with
    | failed paved => exact paved

theorem episodesPaved {output : Path} {w : World} {errands : List Errand}
    (failing : ∀ e ∈ w.episodes output errands, e.Failed ∧ e.Tidy) :
    w.tree.Paved (w.afterAll output errands).tree output := by
  induction errands generalizing w with
  | nil => exact Tree.pavedRefl _ _
  | cons errand rest ih =>
    obtain ⟨failed, tidy⟩ := failing _ List.mem_cons_self
    have first := episodePaved failed
    rw [tidy] at first
    have others := ih fun e made => failing e (List.mem_cons_of_mem _ made)
    exact Tree.pavedTrans first others

theorem historyKeeps (output : Path) (w : World) (errands : List Errand) :
    (∀ e ∈ w.episodes output errands, ∀ failure, e.result = some (.error failure) →
      (failure.stage ≠ .write → e.after.tree = e.left) ∧
      (failure.stage = .spawn → e.after.tree = e.met.tree)) ∧
    (∀ earlier e later report, w.episodes output errands = earlier ++ e :: later →
      e.result = some (.ok report) → (∀ other ∈ later, other.Failed ∧ other.Tidy) →
      (w.afterAll output errands).tree.read output = .ok report.artifact ∨
        (w.afterAll output errands).tree.read output = .error (.system .notADirectory) ∧
          e.left.Crossed output) ∧
    ((∀ e ∈ w.episodes output errands, e.Failed ∧ e.Tidy) →
      w.tree.Paved (w.afterAll output errands).tree output) := by
  refine ⟨?_, ?_, episodesPaved⟩
  · intro e made failure failed
    obtain ⟨before, errand, rfl⟩ := episodeMade made
    refine ⟨episodeKept failed, fun spawn => ?_⟩
    exact (episodeKept failed (by rw [spawn]; decide)).trans (episodeSpawned failed spawn)
  · intro earlier e later report split done failing
    have made : e ∈ w.episodes output errands := by
      rw [split]
      exact List.mem_append_right _ List.mem_cons_self
    obtain ⟨before, errand, rfl⟩ := episodeMade made
    obtain ⟨rest, rfl, last⟩ := episodesSplit split
    -- Whether the path can be read or is blocked, the failures after it leave it so.
    have grows := (episodesPaved failing).grows
    have reads : (before.episode output errand).after.tree.read output = .ok report.artifact ∨
        (before.episode output errand).after.tree.read output = .error (.system .notADirectory) ∧
          (before.episode output errand).left.Crossed output := (reportPersisted done).reads
    rw [last]
    rcases reads with read | ⟨read, crossed⟩
    · rw [Tree.readGrows grows (by rw [read]; exact nofun)]
      exact .inl read
    · rw [Tree.readGrows grows (by rw [read]; exact nofun)]
      exact .inr ⟨read, crossed⟩

theorem printsTidy {w : World} {line : String} (same : w.conduct = .prints line) (i : Invocation)
    (timeline : Timeline) : w.leftBy i timeline = w.tree := by
  unfold leftBy
  split
  · rfl
  · split
    · rename_i performance started
      obtain ⟨_, found, _, rfl⟩ := Launch.performFound.mp started
      rw [same]
      rfl
    · rfl

theorem lastSuccessKept :
    let output : Path := .ofText "o"
    let report : Report := ⟨"./p", "o", ["--cfg=x"], .written, 0⟩
    let plain := Errand.plain (.prints "cargo:rustc-cfg=y") "./p"
    let first := single.episode output (.plain (.prints "cargo:rustc-cfg=x") "./p")
    let unwaited := first.after.episode output
      { plain with mishaps := { Mishaps.none with wait := some "no" } }
    let missing := unwaited.after.episode output { plain with invocation := .new "./q" }
    let full := missing.after.episode output { plain with disk := .full }
    first.result = some (.ok report) ∧
    unwaited.result = some (.error (.probe (.io "./p" "no"))) ∧
    missing.result = some (.error (.probe
      (.spawnFailed "./q" "No such file or directory (os error 2)"))) ∧
    full.result = some (.error (.write ⟨"o", "No space left on device (os error 28)"⟩)) ∧
    (full.after.tree.read output = .ok report.artifact ∨
      full.after.tree.read output = .error (.system .notADirectory) ∧
        first.left.Crossed output) := by
  intro output report plain first unwaited missing full
  have done : first.result = some (.ok report) := by cbv
  have unseen : unwaited.result = some (.error (.probe (.io "./p" "no"))) := by cbv
  have absent : missing.result = some (.error (.probe
      (.spawnFailed "./q" "No such file or directory (os error 2)"))) := by cbv
  have refused : full.result =
    some (.error (.write ⟨"o", "No space left on device (os error 28)"⟩)) := by cbv
  have failed {e : Episode} {failure : RunFailure} (result : e.result = some (.error failure)) :
      e.Failed := by
    intro other succeeded
    rw [result] at succeeded
    cases succeeded
  refine ⟨done, unseen, absent, refused, (historyKeeps output single
    [.plain (.prints "cargo:rustc-cfg=x") "./p",
      { plain with mishaps := { Mishaps.none with wait := some "no" } },
      { plain with invocation := .new "./q" }, { plain with disk := .full }]).2.1 [] first
      [unwaited, missing, full] report rfl done ?_⟩
  intro other made
  fin_cases made
  · exact ⟨failed unseen, printsTidy rfl _ _⟩
  · exact ⟨failed absent, printsTidy rfl _ _⟩
  · exact ⟨failed refused, printsTidy rfl _ _⟩

theorem damagedElsewhere :
    let linked' := linked.episode (.ofText "l/../l") (.plain linked.conduct "./p")
    let untidy' := (untidy "f" (.exits 1)).episode (.ofText "out")
      (.plain (untidy "f" (.exits 1)).conduct "./p")
    (linked'.result = some (.ok ⟨"./p", "l/../l", ["--cfg=x"], .written, 0⟩) ∧
      linked'.after.tree.read (.ofText "l/../l") = .error (.system .notADirectory)) ∧
    (untidy "f" (.exits 1)).tree.get? ⟨Tree.root, "f"⟩ = none ∧
    untidy'.result = some (.error (.probe (.nonZeroExit "./p" (some 1) ""))) ∧
    untidy'.after.tree.read (.ofText "f") = .ok [] :=
  ⟨linkedRun.1, by cbv, by cbv, by cbv⟩

end World
end BuildProbe
