import BuildProbe.Proofs.Artifact.Readback
import BuildProbe.Proofs.Command.Handing
import BuildProbe.Proofs.Path.Spelling
import BuildProbe.Proofs.Text.Json

/-!
What the command tells about a run. Its status is 0 only when the arguments are accepted and the run
succeeds, and nothing is printed otherwise. What is printed then can be read back. As JSON it is the
report; as text it ends with the count of the flags, the flags one a line, and the duration. In
either form the flags are those that are at the output path from then on, and the outcome tells
whether they have been there before. The one exception is a path that leads to its place only
through the link in that place.
-/
namespace BuildProbe

open Text (Bytes)

namespace Command

variable {w : World} {args : List String} {interrupt : Bool} {a : Arguments} {report : Report}

def Arguments.left (a : Arguments) (w : World) (interrupt : Bool) : Tree :=
  let i := (a.request w.environment).invocation
  w.leftBy i ((interruptPlan interrupt (w.stuck? i)).timeline (w.stuck? i))

/- The arguments are accepted, and the run that the command makes of them succeeds. -/
structure Succeeds (w : World) (args : List String) (interrupt : Bool) (a : Arguments)
    (report : Report) : Prop where
  accepted : Arguments.parse w.environment args = .ok a
  succeeded : (a.made w interrupt).1.result? = some (.ok report)
  ran : ∃ told, run w args interrupt =
    (.ran (a.request w.environment) a.report (a.made w interrupt).1.result? told,
      (a.made w interrupt).2)

theorem succeedsZero (succeeds : Succeeds w args interrupt a report) :
    (run w args interrupt).1.status = 0 := by
  obtain ⟨told, ran⟩ := succeeds.ran
  rw [ran, succeeds.succeeded]
  rfl

theorem statusZero
    (unasked : ∀ halt, Arguments.parse w.environment args = .error halt → ∃ m, halt = .misuse m) :
    (run w args interrupt).1.status = 0 ↔ ∃ a report, Succeeds w args interrupt a report := by
  constructor
  · intro zero
    cases parsed : Arguments.parse w.environment args with
    | error halt =>
      obtain ⟨m, rfl⟩ := unasked halt parsed
      rw [runRefused parsed] at zero
      cases zero
    | ok a =>
      rcases runAccepted parsed interrupt with broken | ⟨told, ran⟩
      · rw [broken] at zero
        cases zero
      · cases result : (a.made w interrupt).1.result? with
        | none =>
          rw [ran, result] at zero
          cases zero
        | some ended =>
          cases ended with
          | error failure =>
            rw [ran, result] at zero
            cases zero
          | ok report => exact ⟨a, report, parsed, result, told, ran⟩
  · rintro ⟨a, report, succeeds⟩
    exact succeedsZero succeeds

theorem stdoutSilent
    (unasked : ∀ halt, Arguments.parse w.environment args = .error halt → ∃ m, halt = .misuse m)
    (failed : (run w args interrupt).1.status ≠ 0) :
    (run w args interrupt).1.stdout w.environment = "" := by
  cases parsed : Arguments.parse w.environment args with
  | error halt =>
    obtain ⟨m, rfl⟩ := unasked halt parsed
    rw [runRefused parsed]
    rfl
  | ok a =>
    rcases runAccepted parsed interrupt with broken | ⟨told, ran⟩
    · rw [broken]
      rfl
    · rw [ran] at failed ⊢
      cases result : (a.made w interrupt).1.result? with
      | none => rfl
      | some ended =>
        cases ended with
        | error failure => rfl
        | ok report =>
          rw [result] at failed
          exact absurd rfl failed

/-! ## Printed lines -/

theorem splitFlags {flags : List String} (plain : ∀ f ∈ flags, '\n' ∉ f.toList) (rest : List Char) :
    List.splitOn '\n' ((String.join (flags.map fun f => "    " ++ f ++ "\n")).toList ++ rest) =
      flags.map (fun f => ("    " ++ f).toList) ++ rest.splitOn '\n' := by
  induction flags with
  | nil => rfl
  | cons f flags ih =>
    obtain ⟨first, others⟩ := List.forall_mem_cons.mp plain
    have line : '\n' ∉ ("    " ++ f).toList := by
      simp [first]
    have text : (String.join ((f :: flags).map fun f => "    " ++ f ++ "\n")).toList ++ rest =
        ("    " ++ f).toList ++ '\n' ::
          ((String.join (flags.map fun f => "    " ++ f ++ "\n")).toList ++ rest) := by
      simp
    rw [text, List.splitOn_append_cons_self_of_not_mem line, ih others]
    rfl

def labelledLine (colour : Bool) (label text : String) : String :=
  "  " ++ styled colour ["1"] label ++ " " ++ text

theorem labelledList (colour : Bool) (label text : String) :
    (labelled colour label text).toList = (labelledLine colour label text).toList ++ ['\n'] := by
  rw [labelled, labelledLine, String.toList_append]
  rfl

theorem digitsPlain (n : Nat) : '\n' ∉ Nat.toDigits 10 n := by
  intro member
  cases Nat.isDigit_of_mem_toDigits (by decide) (by decide) member

theorem integerPlain (i : Int) : '\n' ∉ (toString i).toList := by
  cases i with
  | ofNat n =>
    rw [Json.naturalText]
    exact digitsPlain n
  | negSucc n =>
    rw [Json.negativeText, List.mem_cons, not_or]
    exact ⟨by decide, digitsPlain (n + 1)⟩

theorem labelledPlain (colour : Bool) {label text : String} (named : '\n' ∉ label.toList)
    (plain : '\n' ∉ text.toList) : '\n' ∉ (labelledLine colour label text).toList := by
  cases colour <;> simp [labelledLine, styled, marked, named, plain]

theorem linesEnd (colour : Bool) (plain : ∀ f ∈ report.flags, '\n' ∉ f.toList) :
    ∃ front, (reportLines colour report).toList.splitOn '\n' =
      front ++ (labelledLine colour "Flags:" (toString report.flags.length)).toList ::
        (report.flags.map (fun f => ("    " ++ f).toList) ++
          [(labelledLine colour "Duration:" (toString report.duration.toInt ++ " ms")).toList,
            []]) := by
  have text : (reportLines colour report).toList =
      ((headline colour report.outcome ++ "\n" ++ labelled colour "Probe:" report.probe).toList ++
        (labelledLine colour "Output:" report.output).toList) ++ '\n' ::
      ((labelledLine colour "Flags:" (toString report.flags.length)).toList ++ '\n' ::
        ((String.join (report.flags.map fun f => "    " ++ f ++ "\n")).toList ++
          ((labelledLine colour "Duration:" (toString report.duration.toInt ++ " ms")).toList ++
            '\n' :: []))) := by
    simp only [reportLines, String.toList_append, labelledList, List.append_assoc,
      List.cons_append, List.nil_append]
  have count : '\n' ∉ (labelledLine colour "Flags:" (toString report.flags.length)).toList :=
    labelledPlain colour (by decide) (integerPlain report.flags.length)
  have duration : '\n' ∉
      (labelledLine colour "Duration:" (toString report.duration.toInt ++ " ms")).toList := by
    refine labelledPlain colour (by decide) ?_
    rw [String.toList_append, List.mem_append, not_or]
    exact ⟨integerPlain report.duration.toInt, by decide⟩
  refine ⟨List.splitOn '\n' ((headline colour report.outcome ++ "\n"
    ++ labelled colour "Probe:" report.probe).toList
    ++ (labelledLine colour "Output:" report.output).toList), ?_⟩
  rw [text, List.splitOn_append_cons_self,
    List.splitOn_append_cons_self_of_not_mem count, splitFlags plain,
    List.splitOn_append_cons_self_of_not_mem duration, List.splitOn_nil]

/-! ## What is told of a run that succeeds -/

theorem outcomeNamed (outcome : Outcome) : outcome.name = "UNCHANGED" ↔ outcome = .unchanged := by
  cases outcome <;> decide

theorem succeedsPersists (succeeds : Succeeds w args interrupt a report) :
    Path.ofText report.output = (a.request w.environment).output ∧
    (∀ f ∈ report.flags, '\n' ∉ f.toList) ∧
    ((run w args interrupt).2.tree.read (a.request w.environment).output = .ok report.artifact ∨
      (run w args interrupt).2.tree.read (a.request w.environment).output =
          .error (.system .notADirectory) ∧
        (a.left w interrupt).Crossed (a.request w.environment).output) ∧
    (report.outcome = .unchanged ↔
      (a.left w interrupt).read (a.request w.environment).output = .ok report.artifact) := by
  obtain ⟨told, ran⟩ := succeeds.ran
  have reads := (World.reportPersisted succeeds.succeeded).reads
  obtain ⟨captured, _, account, persisted⟩ := World.reportPersists succeeds.succeeded
  have output : report.output = (a.request w.environment).output.text := by rw [account]
  have flags : report.flags = (Directive.flags captured.stdout).map Flag.display := by rw [account]
  have bytes : report.artifact =
      Text.encode (Artifact.render (Directive.flags captured.stdout)) := by
    rw [Report.artifact, flags, Artifact.renderLines]
  refine ⟨?_, ?_, ?_, ?_⟩
  · rw [output]
    exact congrArg Path.ofText (Path.textOfText _)
  · intro line member
    rw [flags] at member
    obtain ⟨f, asked, rfl⟩ := List.mem_map.mp member
    exact f.displayPlain.mpr (Directive.flagsPlain captured.stdout f asked)
  · rw [ran]
    exact reads
  · rw [bytes]
    exact Draft.writeOutcome (Tree.draftRenders ..) persisted

theorem succeedsPrints (succeeds : Succeeds w args interrupt a report) :
    (run w args interrupt).1.stdout w.environment =
      reportText (coloured w.environment) a.report report := by
  obtain ⟨told, ran⟩ := succeeds.ran
  rw [ran, succeeds.succeeded]
  rfl

theorem commandTells (w : World) (args : List String) (interrupt : Bool)
    (unasked : Arguments.parse w.environment args ≠ .error .help ∧
      Arguments.parse w.environment args ≠ .error .version) :
    ((run w args interrupt).1.status = 0 ↔ ∃ a report, Succeeds w args interrupt a report) ∧
    ((run w args interrupt).1.status ≠ 0 → (run w args interrupt).1.stdout w.environment = "") ∧
    ∀ a report, Succeeds w args interrupt a report →
      Path.ofText report.output = (a.request w.environment).output ∧
      ((run w args interrupt).2.tree.read (a.request w.environment).output = .ok report.artifact ∨
        (run w args interrupt).2.tree.read (a.request w.environment).output =
            .error (.system .notADirectory) ∧
          (a.left w interrupt).Crossed (a.request w.environment).output) ∧
      (report.outcome.name = "UNCHANGED" ↔
        (a.left w interrupt).read (a.request w.environment).output = .ok report.artifact) ∧
      (a.report = .json → Json.parse? ((run w args interrupt).1.stdout w.environment) =
        some (.obj [("probe", .str report.probe), ("output", .str report.output),
          ("flags", .arr (report.flags.map .str)), ("outcome", .str report.outcome.name),
          ("duration_ms", .int report.duration.toInt)])) ∧
      (a.report = .text → ∃ front, List.splitOn '\n'
          ((run w args interrupt).1.stdout w.environment).toList =
        front ++ (labelledLine (coloured w.environment) "Flags:"
            (toString report.flags.length)).toList ::
          (report.flags.map (fun f => ("    " ++ f).toList) ++
            [(labelledLine (coloured w.environment) "Duration:"
              (toString report.duration.toInt ++ " ms")).toList, []])) := by
  have misused : ∀ halt, Arguments.parse w.environment args = .error halt →
      ∃ m, halt = .misuse m := by
    intro halt refused
    cases halt with
    | help => exact absurd refused unasked.1
    | version => exact absurd refused unasked.2
    | misuse m => exact ⟨m, rfl⟩
  refine ⟨statusZero misused, stdoutSilent misused, ?_⟩
  intro a report succeeds
  obtain ⟨output, plain, reads, unchanged⟩ := succeedsPersists succeeds
  rw [succeedsPrints succeeds]
  refine ⟨output, reads, (outcomeNamed report.outcome).trans unchanged, ?_, ?_⟩
  · intro json
    rw [json]
    exact Json.renderReads report.toJson
  · intro text
    rw [text]
    exact linesEnd (coloured w.environment) plain

def toPath (output : String) : List String :=
  ["--probe", "./p", "--output", output, "--report", "json"]

theorem singleTold :
    let a : Arguments := ⟨"./p", "a/b", "", [], .json⟩
    Arguments.parse World.single.environment (toPath "a/b") = .ok a ∧
    (run World.single (toPath "a/b") false).1.status = 0 ∧
    ∃ report, Succeeds World.single (toPath "a/b") false a report ∧
      ((run World.single (toPath "a/b") false).2.tree.read (.ofText "a/b") = .ok report.artifact ∨
        (run World.single (toPath "a/b") false).2.tree.read (.ofText "a/b") =
            .error (.system .notADirectory) ∧
          (a.left World.single false).Crossed (.ofText "a/b")) ∧
      Json.parse? ((run World.single (toPath "a/b") false).1.stdout World.single.environment) =
        some (.obj [("probe", .str report.probe), ("output", .str report.output),
          ("flags", .arr (report.flags.map .str)), ("outcome", .str report.outcome.name),
          ("duration_ms", .int report.duration.toInt)]) := by
  intro a
  have accepted : Arguments.parse World.single.environment (toPath "a/b") = .ok a := by cbv
  have unasked : Arguments.parse World.single.environment (toPath "a/b") ≠ .error .help ∧
      Arguments.parse World.single.environment (toPath "a/b") ≠ .error .version := by
    rw [accepted]
    constructor <;> intro same <;> cases same
  have done : (run World.single (toPath "a/b") false).1.status = 0 := by cbv
  obtain ⟨zero, _, tells⟩ := commandTells World.single (toPath "a/b") false unasked
  obtain ⟨a', report, succeeds⟩ := zero.mp done
  cases accepted.symm.trans succeeds.accepted
  obtain ⟨_, reads, _, json, _⟩ := tells a report succeeds
  have output : (a.request World.single.environment).output = .ofText "a/b" := by cbv
  rw [output] at reads
  exact ⟨accepted, done, report, succeeds, reads, json rfl⟩

theorem unfilteredSucceeds (accepted : Arguments.parse w.environment args = .ok a)
    (unfiltered : (Filter.ofEnvironment? w.environment).isSome)
    (done : (a.made w interrupt).1.result? = some (.ok report)) :
    Succeeds w args interrupt a report := by
  refine ⟨accepted, done, ?_⟩
  rcases runAccepted accepted interrupt with broken | ran
  · have filtered : (run w args interrupt).1 ≠ .broken := by
      unfold run
      rw [accepted]
      simp only [Option.isNone_eq_false_iff.mpr unfiltered]
      exact nofun
    exact absurd (congrArg Prod.fst broken) filtered
  · exact ran

theorem jsonPrinted (succeeds : Succeeds w args interrupt a report) (json : a.report = .json) :
    Json.parse? ((run w args interrupt).1.stdout w.environment) = some report.toJson := by
  rw [succeedsPrints succeeds, json]
  exact Json.renderReads report.toJson

theorem madeQuiet (a : Arguments) (w : World) :
    a.made w false = World.services.run (a.request w.environment) .quiet w := by
  have never : ∀ stuck, interruptPlan false stuck = .never := fun _ => if_neg (nofun ∘ And.left)
  simp only [Arguments.made, World.run, never]
  rfl

theorem linkedTold :
    let a : Arguments := ⟨"./p", "l/../l", "", [], .json⟩
    let report : Report := ⟨"./p", "l/../l", ["--cfg=x"], .written, 0⟩
    Succeeds World.linked (toPath "l/../l") false a report ∧
      (run World.linked (toPath "l/../l") false).2.tree.read (.ofText "l/../l") =
        .error (.system .notADirectory) := by
  intro a report
  have accepted : Arguments.parse World.linked.environment (toPath "l/../l") = .ok a := by cbv
  have output : (a.request World.linked.environment).output = .ofText "l/../l" := by cbv
  have program : (a.request World.linked.environment).probe = "./p" := by cbv
  have performed : World.linked.performance (a.invocation World.linked.environment) =
    World.linked.performance (.new "./p") := by cbv
  obtain ⟨result, after⟩ := @World.runSame World.linked .none .sound
    (a.request World.linked.environment) .quiet (World.toSingle "l/../l") output program performed
  obtain ⟨⟨told, unread⟩, _⟩ := World.linkedRun
  have done : (a.made World.linked false).1.result? = some (.ok report) := by
    rw [madeQuiet]
    exact result.trans told
  have succeeds := unfilteredSucceeds accepted (by cbv) done
  obtain ⟨events, ran⟩ := succeeds.ran
  refine ⟨succeeds, ?_⟩
  have same : (World.services.run (a.request World.linked.environment) .quiet World.linked).2 =
    (World.services.run (World.toSingle "l/../l") .quiet World.linked).2 := after
  rw [ran, madeQuiet, same]
  exact unread

theorem toldElsewhere :
    let tidied := World.untidy "o" (.exits 0)
    ((run World.linked (toPath "l/../l") false).1.status = 0 ∧
      Json.parse? ((run World.linked (toPath "l/../l") false).1.stdout World.linked.environment) =
        some (.obj [("probe", .str "./p"), ("output", .str "l/../l"),
          ("flags", .arr [.str "--cfg=x"]), ("outcome", .str "WRITTEN"),
          ("duration_ms", .int 0)]) ∧
      (run World.linked (toPath "l/../l") false).2.tree.read (.ofText "l/../l") =
        .error (.system .notADirectory)) ∧
    (run tidied (toPath "o") false).1.status = 0 ∧
    Json.parse? ((run tidied (toPath "o") false).1.stdout tidied.environment) =
      some (.obj [("probe", .str "./p"), ("output", .str "o"), ("flags", .arr []),
        ("outcome", .str "UNCHANGED"), ("duration_ms", .int 0)]) ∧
    tidied.tree.read (.ofText "o") = .error (.system .notFound) := by
  intro tidied
  have printed : Succeeds tidied (toPath "o") false ⟨"./p", "o", "", [], .json⟩
      ⟨"./p", "o", [], .unchanged, 0⟩ :=
    unfilteredSucceeds (by cbv) (by cbv) (by cbv)
  obtain ⟨told, unread⟩ := linkedTold
  exact ⟨⟨succeedsZero told, jsonPrinted told rfl, unread⟩, succeedsZero printed,
    jsonPrinted printed rfl, by cbv⟩

end Command
end BuildProbe
