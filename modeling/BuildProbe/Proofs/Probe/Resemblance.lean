import BuildProbe.Proofs.Probe.Supervised
import BuildProbe.Proofs.Tree.Resemblance

/-!
Probes that differ in what they write to the standard error, and in when they write it. Whatever
else such probes do is the same: what they print, how they end, and whether something that they
leave behind still holds their streams. So they are found and started alike, and under supervision
they come to the same, up to the lines of the standard error in the log and to the tail of it that
a failure carries.
-/
namespace BuildProbe

open Text (Bytes)

structure Story.Resembles (s s' : Story) : Prop where
  out : s.captured .out = s'.captured .out
  late : s.late.isSome = s'.late.isSome
  ending : s.ending = s'.ending

def Program.Resembles (p p' : Program) : Prop :=
  ∀ environment arguments input,
    (p.story environment arguments input).Resembles (p'.story environment arguments input)

inductive Content.Resembles : Content → Content → Prop where
  | data (bytes : Bytes) : Resembles (.data bytes) (.data bytes)
  | program {p p' : Program} (like : p.Resembles p') : Resembles (.program p) (.program p')

theorem Content.resemblesRefl (content : Content) : content.Resembles content := by
  cases content with
  | data bytes => exact .data bytes
  | program p => exact .program fun _ _ _ => ⟨rfl, rfl, rfl⟩

theorem Content.resemblesBytes {content content' : Content} (like : content.Resembles content') :
    content.bytes = content'.bytes := by
  cases like <;> rfl

/-! ## Scripts -/

namespace Script

/- Scripts that differ in what they, and what they leave behind, write to the standard error, and
in which of their streams is written first. -/
structure Resembles (s s' : Script) : Prop where
  out : s.out = s'.out
  asks : s.asks = s'.asks
  inputs : s.inputs = s'.inputs
  late : s.late.map (·.1) = s'.late.map (·.1)
  ending : s.ending = s'.ending

theorem storyPrints (s : Script) (environment : Environment) (arguments input : Nat) :
    (s.story environment arguments input).captured .out =
      s.out ++ s.asks.flatMap (reply environment) ++
        (if s.inputs then inputReply arguments input else []) ++ (s.late.map (·.1)).getD [] := by
  have replies : Chunk.gather .out (s.asks.map fun name => ⟨.out, reply environment name⟩) =
      s.asks.flatMap (reply environment) := by
    simp [Chunk.gather, List.flatMap_map]
  have own : Chunk.gather .out (if s.errFirst then [⟨.err, s.err⟩, ⟨.out, s.out⟩]
      else [⟨.out, s.out⟩, ⟨.err, s.err⟩]) = s.out := by
    cases s.errFirst <;> simp [Chunk.gather]
  have inputs : Chunk.gather .out (if s.inputs then [⟨.out, inputReply arguments input⟩] else []) =
      if s.inputs then inputReply arguments input else [] := by
    cases s.inputs <;> simp [Chunk.gather]
  have gathers (a b : List Chunk) :
      Chunk.gather .out (a ++ b) = Chunk.gather .out a ++ Chunk.gather .out b :=
    List.flatMap_append
  simp only [Story.captured, story, gathers, own, replies, inputs]
  cases s.late <;> simp [Chunk.gather]

theorem programResembles {s s' : Script} (like : s.Resembles s') :
    s.program.Resembles s'.program := by
  intro environment arguments input
  refine ⟨?_, ?_, like.ending⟩
  · change (s.story environment arguments input).captured .out =
      (s'.story environment arguments input).captured .out
    rw [storyPrints, storyPrints, like.out, like.asks, like.inputs, like.late]
  · have late := congrArg Option.isSome like.late
    simpa [program, story] using late

end Script

/-! ## The start of a probe -/

section

variable {t t' : Tree}

def Launch.Resembles (l l' : Launch) : Prop :=
  l.arguments = l'.arguments ∧ l.program.Resembles l'.program

namespace Image

theorem imageResembles (like : t.Resembles Content.Resembles t') (p : Path) :
    Tallies Content.Resembles (image t p) (image t' p) := by
  have entries := Tree.entryResembles like true p
  unfold image
  split
  · exact .error _
  · generalize t.entry true p = found at entries
    generalize t'.entry true p = found' at entries
    cases entries with
    | error why => exact .error why
    | @ok e e' entries =>
      have file (content content' : Content) (mode : Nat) (same : content.Resembles content') :
          Tallies Content.Resembles
            (if mode &&& executeBits = 0 then .error .permissionDenied else .ok content)
            (if mode &&& executeBits = 0 then .error Errno.permissionDenied else .ok content') := by
        split
        · exact .error _
        · exact .ok same
      cases entries with
      | same =>
        obtain ⟨id, node⟩ := e
        cases node with
        | file content mode => exact file content content mode (Content.resemblesRefl content)
        | _ => exact .error _
      | file id mode other => exact file _ _ mode other

theorem executeResembles (like : t.Resembles Content.Resembles t') (p : Path)
    (arguments : List Bytes) (depth : Nat) {content content' : Content}
    (same : content.Resembles content') :
    Tallies Launch.Resembles (execute t p arguments depth content)
      (execute t' p arguments depth content') := by
  -- A program ends the search; a text leads to its interpreter, one level deeper.
  induction depth using Nat.strongRecOn generalizing p arguments content content' with
  | _ depth ih =>
    cases same with
    | program alike =>
      rw [execute, execute]
      exact .ok ⟨rfl, alike⟩
    | data bytes =>
      rw [execute, execute]
      cases interpreter? bytes with
      | none => exact .error _
      | some named =>
        have images := imageResembles like named.1
        simp only [bind, Except.bind]
        generalize image t named.1 = found at images
        generalize image t' named.1 = found' at images
        cases images with
        | error why => exact .error why
        | ok inner =>
          cases depth with
          | zero => exact .error _
          | succ depth => exact ih depth (Nat.lt_succ_self depth) _ _ inner

theorem runResembles (like : t.Resembles Content.Resembles t') (overlong : Bool)
    (arguments : List Bytes) (p : Path) :
    Tallies Launch.Resembles (run t overlong arguments p) (run t' overlong arguments p) := by
  have images := imageResembles like p
  unfold run
  simp only [bind, Except.bind]
  generalize image t p = found at images
  generalize image t' p = found' at images
  cases images with
  | error why => exact .error why
  | ok same =>
    dsimp only
    split
    · exact .error _
    · exact executeResembles like _ _ _ same

theorem formatlessResembles (like : t.Resembles Content.Resembles t') (p : Path) :
    formatless t p = formatless t' p := by
  have runs := runResembles like false [] p
  have images := imageResembles like p
  unfold formatless
  generalize run t false [] p = ran at runs
  generalize run t' false [] p = ran' at runs
  generalize image t p = found at images
  generalize image t' p = found' at images
  cases runs with
  | ok _ => rfl
  | error why =>
    cases images with
    | error _ => rfl
    | ok same => cases same <;> cases why <;> rfl

end Image

namespace Launch

inductive Found.Resembles : Found → Found → Prop where
  | program {l l' : Launch} (like : l.Resembles l') : Resembles (.program l) (.program l')
  | script (path : Bytes) : Resembles (.script path) (.script path)

theorem runFoundResembles (like : t.Resembles Content.Resembles t') (overlong shell : Bool)
    (name : String) :
    Tallies Found.Resembles (runFound t overlong shell name)
      (runFound t' overlong shell name) := by
  have runs := Image.runResembles like overlong [] (.ofText name)
  unfold runFound
  rw [Image.formatlessResembles like]
  generalize Image.run t overlong [] (.ofText name) = ran at runs
  generalize Image.run t' overlong [] (.ofText name) = ran' at runs
  cases runs with
  | ok same => exact .ok (.program same)
  | error why =>
    split
    · split
      · exact .ok (.script _)
      · exact .error _
    · exact .error why

theorem searchResembles (like : t.Resembles Content.Resembles t') (overlong shell : Bool)
    (name : String) (denied : Bool) (last : Errno) (dirs : List String) :
    Tallies Found.Resembles (search t overlong shell name denied last dirs)
      (search t' overlong shell name denied last dirs) := by
  induction dirs generalizing denied last with
  | nil => exact .error _
  | cons dir rest ih =>
    have runs := runFoundResembles like overlong shell
      (if dir = "" then name else dir ++ "/" ++ name)
    rw [search, search]
    generalize runFound t overlong shell _ = ran at runs
    generalize runFound t' overlong shell _ = ran' at runs
    cases runs with
    | ok same => exact .ok same
    | error why =>
      cases why with
      | permissionDenied => exact ih _ _
      | notFound => exact ih _ _
      | notADirectory => exact ih _ _
      | _ => exact .error _

theorem findResembles (like : t.Resembles Content.Resembles t') (ambient : Environment)
    (i : Invocation) :
    Tallies Found.Resembles (find t ambient i) (find t' ambient i) := by
  unfold find
  dsimp only
  split
  · exact .error _
  · split
    · exact talliesMap .program (Image.runResembles like ..)
    · exact searchResembles like ..

end Launch

end

/-! ## The course of a probe -/

def ProbeFailure.bare : ProbeFailure → ProbeFailure
  | .nonZeroExit program status _ => .nonZeroExit program status ""
  | cause => cause

def Event.bare? : Event → Option Event
  | .stderrLine .. => none
  | .probeFailed probe cause => some (.probeFailed probe cause.bare)
  | .completed probe output count outcome _ => some (.completed probe output count outcome 0)
  | e => some e

def bareLog (told : List Event) : List Event := told.filterMap Event.bare?

theorem bareAppend (a b : List Event) : bareLog (a ++ b) = bareLog a ++ bareLog b :=
  List.filterMap_append

inductive Verdict.Resembles :
    Except ProbeFailure Captured → Except ProbeFailure Captured → Prop where
  | ok {captured captured' : Captured} (stdout : captured.stdout = captured'.stdout)
      (status : captured.status = captured'.status) : Resembles (.ok captured) (.ok captured')
  | error {cause cause' : ProbeFailure} (bare : cause.bare = cause'.bare) :
      Resembles (.error cause) (.error cause')

theorem Verdict.resemblesRefl (answer : Except ProbeFailure Captured) :
    Resembles answer answer := by
  cases answer with
  | ok captured => exact .ok rfl rfl
  | error cause => exact .error rfl

structure Course.Resembles (c c' : Course) : Prop where
  result : Option.Rel Verdict.Resembles c.result c'.result
  told : bareLog c.told = bareLog c'.told
  process : c.process = c'.process

theorem Course.resemblesRefl (c : Course) : c.Resembles c := by
  refine ⟨?_, rfl, rfl⟩
  cases c.result with
  | none => exact .none
  | some answer => exact .some (Verdict.resemblesRefl answer)

namespace Story

variable {s s' : Story} {program : String} {grace : Nat} {timeline : Timeline}

theorem stderrBare (s : Story) (program : String) : bareLog (s.stderrEvents program) = [] := by
  refine List.filterMap_eq_nil_iff.mpr fun e member => ?_
  obtain ⟨line, _, rfl⟩ := List.mem_map.mp member
  rfl

theorem stuckResembles (like : s.Resembles s') : s.stuck? = s'.stuck? := by
  simp only [stuck?, like.ending, like.late]

theorem verdictResembles (like : s.Resembles s') (program : String) :
    Verdict.Resembles (s.verdict program) (s'.verdict program) := by
  have status : s.status? = s'.status? := by
    simp only [status?, like.ending]
  have stdout : s.stdout = s'.stdout := congrArg Text.decode like.out
  unfold verdict
  rw [status]
  by_cases zero : s'.status? = some 0
  · rw [if_pos zero, if_pos zero]
    exact .ok stdout rfl
  · have bare (tail tail' : String) :
        (ProbeFailure.nonZeroExit program s'.status? tail).bare =
          (ProbeFailure.nonZeroExit program s'.status? tail').bare := rfl
    rw [if_neg zero, if_neg zero]
    exact .error (bare _ _)

theorem hangResembles (like : s.Resembles s') : s.hang? = s'.hang? := by
  rw [hang?, hang?, like.ending]

theorem startResembles (like : s.Resembles s') : Process.start s = Process.start s' := by
  rw [Process.start, Process.start, hangResembles like]

theorem terminatedResembles (like : s.Resembles s') (m : Mishaps) (grace : Nat) :
    s.terminated m grace = s'.terminated m grace := by
  have asked : s.asked m = s'.asked m := by
    rw [Story.asked, Story.asked, startResembles like, hangResembles like]
  have leaves : s.leaves m grace = s'.leaves m grace := by
    rw [Story.leaves, Story.leaves, hangResembles like]
  rw [terminated, terminated, asked, leaves]

theorem courseResembles (like : s.Resembles s') (m : Mishaps) :
    (s.course m program grace timeline).Resembles (s'.course m program grace timeline) := by
  have waited : s.waited m = s'.waited m := by rw [Story.waited, Story.waited, hangResembles like]
  have held : s.held m = s'.held m := by rw [Story.held, Story.held, like.late]
  unfold course
  simp only [waited, held, hangResembles like, terminatedResembles like, startResembles like]
  by_cases stopped :
      (timeline.heardBy .running && (!s'.waited m || timeline.signalFirst .running)) = true
  · rw [if_pos stopped, if_pos stopped]
    exact Course.resemblesRefl _
  · rw [if_neg stopped, if_neg stopped]
    cases m.wait with
    | some why => exact Course.resemblesRefl _
    | none =>
      dsimp only
      by_cases hanging : s'.hang?.isSome = true
      · rw [if_pos hanging, if_pos hanging]
        exact Course.resemblesRefl _
      · rw [if_neg hanging, if_neg hanging]
        by_cases dropped :
            (timeline.heardBy .draining && (s'.held m || timeline.signalFirst .draining)) = true
        · rw [if_pos dropped, if_pos dropped]
          exact Course.resemblesRefl _
        · rw [if_neg dropped, if_neg dropped]
          cases unread? m with
          | some why => exact Course.resemblesRefl _
          | none =>
            refine ⟨.some (verdictResembles like program), ?_, rfl⟩
            have bare (s : Story) :
                bareLog (.spawned program :: s.stderrEvents program) = [.spawned program] :=
              congrArg (_ :: ·) (stderrBare s program)
            exact (bare s).trans (bare s').symm

end Story

theorem Course.ofResembles {launched launched' : Except Refusal Story}
    (like : Tallies Story.Resembles launched launched') (m : Mishaps) (program : String)
    (grace : Nat) (timeline : Timeline) :
    (Course.of launched m program grace timeline).Resembles
      (Course.of launched' m program grace timeline) := by
  unfold Course.of
  split
  · exact Course.resemblesRefl _
  · cases like with
    | error why => exact Course.resemblesRefl _
    | ok same => exact Story.courseResembles same m

end BuildProbe
