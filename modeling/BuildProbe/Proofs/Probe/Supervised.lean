import BuildProbe.Proofs.Probe.Course
import BuildProbe.World
import Mathlib

/-!
How a supervised probe ends. Before its start a signal counts more than anything else; then comes
what kept it from starting; then a signal that finds it hanging, or finds its streams still held
open; and only then its own end. There is one case in which either may count: when the probe has
ended, nobody holds its streams, and the signal is there as well, it is up to the runner which of
the two it sees first. A probe that is still there when it is cancelled is told to terminate once,
is killed only if the grace period did not suffice, and is gone unless the system refuses that.
-/
namespace BuildProbe

namespace Hang

def Leaves (h : Hang) (grace : Nat) : Prop := ∃ ms, h.leavesAfter = some ms ∧ ms < grace

theorem yieldsLeaves (h : Hang) (grace : Nat) : h.yields grace = true ↔ h.Leaves grace := by
  unfold yields Leaves
  cases h.leavesAfter with
  | none => simp
  | some ms => simp

/- What becomes of a hanging probe that is cancelled, and what is told of it. -/
inductive Parts (h : Hang) (m : Mishaps) (grace : Nat) : List Event → Process → Prop where
  | left (asks : m.terminate = none) (leaves : h.Leaves grace) :
      Parts h m grace [.terminating, .terminated] ⟨false, h.notices, [15], true⟩
  | killed (asks : m.terminate = none) (stays : ¬ h.Leaves grace) (kills : m.kill = none) :
      Parts h m grace [.terminating, .killing] ⟨false, h.notices, [15, 9], true⟩
  | survived {why} (asks : m.terminate = none) (stays : ¬ h.Leaves grace)
      (refused : m.kill = some why) :
      Parts h m grace [.terminating, .killing, .killFailed why] ⟨true, h.notices, [15], false⟩
  | unasked {why} (refused : m.terminate = some why) (kills : m.kill = none) :
      Parts h m grace [.terminating, .terminateFailed why, .killing] ⟨false, false, [9], true⟩
  | untouched {why why'} (refused : m.terminate = some why) (refused' : m.kill = some why') :
      Parts h m grace [.terminating, .terminateFailed why, .killing, .killFailed why']
        ⟨true, false, [], false⟩

end Hang

namespace Story

/- A signal that the runner cannot miss: it finds the probe hanging, or finds its streams held open
by what it left behind. -/
inductive Interrupted (s : Story) (m : Mishaps) (timeline : Timeline) : Prop where
  | hanging {h} (hangs : s.ending = .hangs h) (heard : timeline.heardBy .running = true)
  | held (ended : s.hang? = none) (late : s.late.isSome = true) (reads : m.read .out = none)
      (heard : timeline.heardBy .draining = true)

def Overtaken (timeline : Timeline) : Prop :=
  SignalSeen timeline .running ∨ SignalSeen timeline .draining

/- What a probe comes to that ends on its own. Both streams are complete. -/
inductive Settles (s : Story) (program : String) : Except ProbeFailure Captured → Prop where
  | succeeded (zero : s.ending = .exits 0) :
      Settles s program (.ok ⟨Text.decode (s.printed .out), Text.decode (s.printed .err), 0⟩)
  | exited {status : UInt8} (ended : s.ending = .exits status) (other : status ≠ 0) :
      Settles s program (.error (.nonZeroExit program (some status.toNat)
        (Text.tail (Text.decode (s.printed .err)) stderrTailLines)))
  | died {signal : Nat} (ended : s.ending = .dies signal) :
      Settles s program (.error (.nonZeroExit program none
        (Text.tail (Text.decode (s.printed .err)) stderrTailLines)))

variable {s : Story} {m : Mishaps} {program : String} {grace : Nat} {timeline : Timeline}

theorem verdictSettles (ended : s.hang? = none) : s.Settles program (s.verdict program) := by
  unfold verdict status? stdout stderr
  rw [capturedPrinted, capturedPrinted]
  cases ending : s.ending with
  | exits status =>
    by_cases zero : status = 0
    · subst zero
      exact .succeeded ending
    · have other : ¬ (some (status.toNat : Int) = some 0) := by
        intro same
        exact zero (UInt8.toNat_inj.mp (Int.natCast_eq_zero.mp (Option.some.inj same)))
      simp only [if_neg other]
      exact .exited ending zero
  | dies signal => exact .died ending
  | hangs h => exact absurd ending (endedElse ended h)

/-! ## The course of a probe -/

/- A process that the runner has let go: told to terminate at most once and then killed at most
once, the latter only if it could not be seen to leave in time, and gone unless that was refused. -/
structure Spent (s : Story) (m : Mishaps) (grace : Nat) (p : Process) : Prop where
  once : p.sent.Sublist [15, 9]
  forced : 9 ∈ p.sent →
    m.wait ≠ none ∨ ∃ h, s.ending = .hangs h ∧ ¬ (m.terminate = none ∧ h.Leaves grace)
  gone : m.kill = none → p.alive = false

/- How the course of a probe that was started depends on the signal, on the probe and on what the
system refuses to the runner. -/
structure Supervised (s : Story) (m : Mishaps) (program : String) (grace : Nat)
    (timeline : Timeline) (course : Course) : Prop where
  endless : course.result = none ↔
    m.wait = none ∧ (∃ h, s.ending = .hangs h) ∧ timeline.heardBy .running = false
  interrupted : m.wait = none → s.Interrupted m timeline →
    course.result = some (.error (.cancelled program))
  overtaken : m.wait = none → s.hang? = none → Overtaken timeline →
    course.result = some (.error (.cancelled program))
  seen : SignalSeen timeline .running → course.result = some (.error (.cancelled program))
  unwaited : ∀ {why}, m.wait = some why → ¬ SignalSeen timeline .running →
    course.result = some (.error (.io program why))
  unread : ∀ {why}, m.wait = none → s.hang? = none → ¬ s.Interrupted m timeline →
    ¬ Overtaken timeline →
    m.read .out = some why ∨ m.read .out = none ∧ m.read .err = some why →
    course.result = some (.error (.io program why))
  settled : m.wait = none → s.hang? = none → ¬ s.Interrupted m timeline → ¬ Overtaken timeline →
    (∀ stream, m.read stream = none) →
    ∃ answer, course.result = some answer ∧ s.Settles program answer
  parted : ∀ {h}, m.wait = none → s.ending = .hangs h → timeline.heardBy .running = true →
    ∃ told p, course.told = .spawned program :: told ∧ course.process = some p ∧
      h.Parts m grace told p
  asked : m.wait = none → s.hang? = none → SignalSeen timeline .running → ∃ p,
    course.process = some p ∧ p.sent = if m.terminate = none then [15] else []
  spared : m.wait = none → timeline.heardBy .running = false ∨
    s.hang? = none ∧ timeline.signalFirst .running = false → ∃ p,
      course.process = some p ∧ p.sent = []
  spent : course.result ≠ none → ∃ p, course.process = some p ∧ s.Spent m grace p

theorem askedSent (s : Story) (m : Mishaps) :
    (s.asked m).2.sent = (if m.terminate = none then [15] else []) ∧
      (s.asked m).2.awaited = false := by
  unfold asked
  cases m.terminate <;> exact ⟨rfl, rfl⟩

theorem terminatedEnded (waits : m.wait = none) (ended : s.hang? = none) :
    (s.terminated m grace).2 = (s.asked m).2.reaped := by
  simp only [terminated, waits, leaves, ended, Option.isSome_none, Bool.false_eq_true, if_false,
    Option.all_none, if_true]

theorem terminatedUnwaited {why : String} (refused : m.wait = some why) :
    (s.terminated m grace).2 = (s.asked m).2 := by
  simp only [terminated, refused, Option.isSome_some, if_true]

theorem terminatedParts {h : Hang} (waits : m.wait = none) (hangs : s.ending = .hangs h) :
    h.Parts m grace (s.terminated m grace).1 ((s.terminated m grace).2.release m) := by
  have hanging : s.hang? = some h := by simp [hang?, hangs]
  have leaves : s.leaves m grace = (m.terminate.isNone && h.yields grace) := by
    rw [Story.leaves, hanging]
    rfl
  simp only [terminated, waits, leaves, Option.isSome_none, Bool.false_eq_true, if_false, asked,
    Story.forced, Process.start, hanging, Option.any_some]
  cases terminate : m.terminate with
  | none =>
    by_cases yields : h.yields grace = true
    · simp only [yields, Option.isNone_none, Bool.and_self, if_true]
      exact .left terminate ((h.yieldsLeaves grace).mp yields)
    · have stays : ¬ h.Leaves grace := fun leaves => yields ((h.yieldsLeaves grace).mpr leaves)
      simp only [yields, Bool.and_false, Bool.false_eq_true, if_false]
      cases kill : m.kill with
      | none => exact .killed terminate stays kill
      | some why =>
        simpa [Process.release, Process.send, terminateSignal, kill] using
          Hang.Parts.survived terminate stays kill
  | some why =>
    simp only [Option.isNone_some, Bool.false_and, Bool.false_eq_true, if_false]
    cases kill : m.kill with
    | none => exact .unasked terminate kill
    | some why' =>
      simpa [Process.release, kill] using Hang.Parts.untouched (h := h) terminate kill

theorem partsSpent {h : Hang} {told : List Event} {p : Process} (hangs : s.ending = .hangs h)
    (parts : h.Parts m grace told p) : s.Spent m grace p := by
  have held (stays : ¬ (m.terminate = none ∧ h.Leaves grace)) :
      m.wait ≠ none ∨ ∃ h, s.ending = .hangs h ∧ ¬ (m.terminate = none ∧ h.Leaves grace) :=
    .inr ⟨h, hangs, stays⟩
  cases parts with
  | left => exact ⟨by simp, by simp, fun _ => rfl⟩
  | killed asks stays kills => exact ⟨by simp, fun _ => held fun left => stays left.2, fun _ => rfl⟩
  | survived asks stays refused => exact ⟨by simp, by simp, fun kills => by simp [kills] at refused⟩
  | unasked refused kills =>
    exact ⟨by simp, fun _ => held fun left => by simp [left.1] at refused, fun _ => rfl⟩
  | untouched refused refused' =>
    exact ⟨by simp, by simp, fun kills => by simp [kills] at refused'⟩

theorem reapedSpent {p : Process} (sent : p.sent = [] ∨ p.sent = [15]) :
    s.Spent m grace p.reaped := by
  have same : p.reaped.sent = p.sent := rfl
  rcases sent with none | one
  · exact ⟨by simp [same, none], by simp [same, none], fun _ => rfl⟩
  · exact ⟨by simp [same, one], by simp [same, one], fun _ => rfl⟩

theorem releaseSpent {why : String} {p : Process} (refused : m.wait = some why)
    (sent : p.sent = [] ∨ p.sent = [15]) (unseen : p.awaited = false) :
    s.Spent m grace (p.release m) := by
  have forced : m.wait ≠ none ∨ ∃ h, s.ending = .hangs h ∧
      ¬ (m.terminate = none ∧ h.Leaves grace) := .inl (by simp [refused])
  unfold Process.release
  rw [unseen, Bool.false_or]
  cases kill : m.kill with
  | none =>
    refine ⟨?_, fun _ => forced, fun _ => rfl⟩
    rcases sent with none | one
    · simp [Process.send, none, killSignal]
    · simp [Process.send, one, killSignal]
  | some why =>
    refine ⟨?_, fun _ => forced, fun kills => by simp [kills] at kill⟩
    rcases sent with none | one
    · simp [none]
    · simp [one]

theorem askedEither (s : Story) (m : Mishaps) :
    (s.asked m).2.sent = [] ∨ (s.asked m).2.sent = [15] := by
  rw [(askedSent s m).1]
  split
  · exact .inr rfl
  · exact .inl rfl

theorem terminatedSpent (s : Story) (m : Mishaps) (grace : Nat) :
    s.Spent m grace ((s.terminated m grace).2.release m) := by
  cases waits : m.wait with
  | some why =>
    rw [terminatedUnwaited waits]
    exact releaseSpent waits (askedEither s m) (askedSent s m).2
  | none =>
    rcases s.hangCases with ⟨h, hangs⟩ | ended
    · exact partsSpent hangs (terminatedParts waits hangs)
    · rw [terminatedEnded waits ended]
      exact reapedSpent (askedEither s m)

theorem dropsEither (ended : s.hang? = none) (drops : s.Drops m timeline) :
    s.Interrupted m timeline ∨ Overtaken timeline := by
  obtain ⟨heard, held | first⟩ := drops
  · simp only [Story.held, Bool.and_eq_true, Option.isNone_iff_eq_none] at held
    exact .inl (.held ended held.1 held.2 heard)
  · exact .inr (.inr ⟨heard, first⟩)

theorem eitherDrops (ended : s.hang? = none) (unseen : ¬ SignalSeen timeline .running)
    (either : s.Interrupted m timeline ∨ Overtaken timeline) : s.Drops m timeline := by
  rcases either with (⟨hangs, _⟩ | ⟨_, late, reads, heard⟩) | (seen | ⟨heard, first⟩)
  · exact absurd hangs (endedElse ended _)
  · exact ⟨heard, .inl (by simp [Story.held, late, reads])⟩
  · exact absurd seen unseen
  · exact ⟨heard, .inr first⟩

theorem unreadExact {why : String} : unread? m = some why ↔
    m.read .out = some why ∨ m.read .out = none ∧ m.read .err = some why := by
  unfold unread?
  cases m.read .out <;> simp

theorem terminatedSupervised (heard : timeline.heardBy .running = true)
    (first : s.waited m = false ∨ timeline.signalFirst .running = true) :
    s.Supervised m program grace timeline ⟨some (.error (.cancelled program)),
      .spawned program :: (s.terminated m grace).1, some ((s.terminated m grace).2.release m)⟩ := by
  -- Whoever waits for something that comes has seen the signal before it.
  have seen : m.wait ≠ none ∨ s.hang? = none → SignalSeen timeline .running := by
    intro comes
    rcases first with unwaited | first
    · obtain ⟨waits, hangs⟩ := Bool.or_eq_false_iff.mp unwaited
      rcases comes with fails | ended
      · exact absurd (by simpa using waits) fails
      · simp [ended] at hangs
    · exact ⟨heard, first⟩
  exact {
    endless := by simp [heard]
    interrupted := fun _ _ => rfl
    overtaken := fun _ _ _ => rfl
    seen := fun _ => rfl
    unwaited := fun refused unseen => absurd (seen (.inl (by simp [refused]))) unseen
    unread := fun _ ended _ free => absurd (.inl (seen (.inr ended))) free
    settled := fun _ ended _ free => absurd (.inl (seen (.inr ended))) free
    parted := fun waits hangs _ => ⟨_, _, rfl, rfl, terminatedParts waits hangs⟩
    asked := by
      intro waits ended _
      refine ⟨_, rfl, ?_⟩
      rw [terminatedEnded waits ended]
      exact (askedSent s m).1
    spared := by
      rintro waits (unheard | ⟨ended, unseen⟩)
      · cases heard.symm.trans unheard
      · cases (seen (.inr ended)).2.symm.trans unseen
    spent := fun _ => ⟨_, rfl, terminatedSpent s m grace⟩ }

theorem unwaitedSupervised {why : String} (refused : m.wait = some why)
    (unseen : ¬ SignalSeen timeline .running) :
    s.Supervised m program grace timeline ⟨some (.error (.io program why)), [.spawned program],
      some ((Process.start s).release m)⟩ := by
  have fails {P : Prop} (waits : m.wait = none) : P := by simp [waits] at refused
  exact {
    endless := by simp [refused]
    interrupted := fun waits => fails waits
    overtaken := fun waits => fails waits
    seen := fun seen => absurd seen unseen
    unwaited := fun refused' _ => by cases refused.symm.trans refused'; rfl
    unread := fun waits => fails waits
    settled := fun waits => fails waits
    parted := fun waits => fails waits
    asked := fun waits => fails waits
    spared := fun waits => fails waits
    spent := fun _ => ⟨_, rfl, releaseSpent refused (.inl rfl) rfl⟩ }

theorem endlessSupervised {h : Hang} (waits : m.wait = none) (hangs : s.ending = .hangs h)
    (unheard : timeline.heardBy .running = false) :
    s.Supervised m program grace timeline ⟨none, [.spawned program], some (.start s)⟩ := by
  have never {P : Prop} (ended : s.hang? = none) : P := absurd hangs (endedElse ended _)
  have deaf {P : Prop} (heard : timeline.heardBy .running = true) : P := by
    cases heard.symm.trans unheard
  exact {
    endless := by simp [waits, hangs, unheard]
    interrupted := by
      rintro _ (⟨_, heard⟩ | ⟨ended, _⟩)
      · exact deaf heard
      · exact never ended
    overtaken := fun _ ended => never ended
    seen := fun seen => deaf seen.1
    unwaited := fun refused => by simp [waits] at refused
    unread := fun _ ended => never ended
    settled := fun _ ended => never ended
    parted := fun _ _ heard => deaf heard
    asked := fun _ ended => never ended
    spared := fun _ _ => ⟨_, rfl, rfl⟩
    spent := fun answered => absurd rfl answered }

/- After its own end a probe is left alone, and what is said of it depends on its streams. -/
theorem endedSupervised {answer : Except ProbeFailure Captured} {told : List Event}
    (waits : m.wait = none) (ended : s.hang? = none) (unseen : ¬ SignalSeen timeline .running)
    (cancelled : s.Drops m timeline → answer = .error (.cancelled program))
    (unread : ∀ {why}, ¬ s.Drops m timeline → unread? m = some why →
      answer = .error (.io program why))
    (settled : ¬ s.Drops m timeline → unread? m = none → s.Settles program answer) :
    s.Supervised m program grace timeline
      ⟨some answer, told, some (Process.start s).reaped⟩ := by
  have stays (through : ¬ s.Interrupted m timeline) (free : ¬ Overtaken timeline) :
      ¬ s.Drops m timeline := fun drops => (dropsEither ended drops).elim through free
  exact {
    endless := by simp [endedElse ended]
    interrupted := fun _ either => congrArg some (cancelled (eitherDrops ended unseen (.inl either)))
    overtaken := fun _ _ either => congrArg some (cancelled (eitherDrops ended unseen (.inr either)))
    seen := fun seen => absurd seen unseen
    unwaited := fun refused => by simp [waits] at refused
    unread := fun _ _ through free refused =>
      congrArg some (unread (stays through free) (unreadExact.mpr refused))
    settled := fun _ _ through free reads =>
      ⟨_, rfl, settled (stays through free) (by simp [unread?, reads])⟩
    parted := fun _ hangs => absurd hangs (endedElse ended _)
    asked := fun _ _ seen => absurd seen unseen
    spared := fun _ _ => ⟨_, rfl, rfl⟩
    spent := fun _ => ⟨_, rfl, reapedSpent (.inl rfl)⟩ }

theorem courseSupervised (s : Story) (m : Mishaps) (program : String) (grace : Nat)
    (timeline : Timeline) :
    s.Supervised m program grace timeline (s.course m program grace timeline) := by
  have goes := s.courseGoes m program grace timeline
  generalize s.course m program grace timeline = course at goes
  cases goes with
  | terminated heard first => exact terminatedSupervised heard first
  | unwaited refused unseen => exact unwaitedSupervised refused unseen
  | endless waits hangs unheard => exact endlessSupervised waits hangs unheard
  | dropped waits ended unseen drops =>
    exact endedSupervised waits ended unseen (fun _ => rfl) (absurd drops) (absurd drops)
  | unread waits ended unseen stays refused =>
    refine endedSupervised waits ended unseen (absurd · stays) (fun _ refused' => ?_)
      fun _ reads => ?_
    · cases refused.symm.trans refused'
      rfl
    · cases refused.symm.trans reads
  | settled waits ended unseen stays reads =>
    refine endedSupervised waits ended unseen (absurd · stays) (fun _ refused => ?_)
      fun _ _ => verdictSettles ended
    cases reads.symm.trans refused

theorem terminatedTold (s : Story) (m : Mishaps) (grace : Nat) :
    ∀ e ∈ (s.terminated m grace).1, e.component = .runner := by
  have asked : ∀ e ∈ (s.asked m).1, e.component = .runner := by
    unfold Story.asked
    split <;> simp [Event.component]
  have forced : ∀ p, ∀ e ∈ (Story.forced m p).1, e.component = .runner := by
    intro p
    unfold Story.forced
    split <;> simp [Event.component]
  unfold Story.terminated
  generalize s.asked m = answer at asked
  obtain ⟨told, p⟩ := answer
  have also : ∀ e ∈ told ++ [Event.terminated], e.component = .runner :=
    List.forall_mem_append.mpr ⟨asked, by simp [Event.component]⟩
  dsimp only
  split
  · exact also
  · split
    · exact also
    · exact List.forall_mem_append.mpr ⟨asked, forced p⟩

theorem courseTold (s : Story) (m : Mishaps) (program : String) (grace : Nat)
    (timeline : Timeline) :
    ∀ e ∈ (s.course m program grace timeline).told, e.component = .runner := by
  have goes := s.courseGoes m program grace timeline
  generalize s.course m program grace timeline = course at goes
  cases goes with
  | terminated => exact List.forall_mem_cons.mpr ⟨rfl, terminatedTold s m grace⟩
  | settled =>
    refine List.forall_mem_cons.mpr ⟨rfl, fun e member => ?_⟩
    obtain ⟨line, _, rfl⟩ := List.mem_map.mp member
    rfl
  | _ => simp [Event.component]

end Story

namespace World

theorem leftRefused {w : World} {i : Invocation} {why : Refusal} (refused : w.story i = .error why)
    (timeline : Timeline) : w.leftBy i timeline = w.tree := by
  unfold story at refused
  unfold leftBy
  cases performed : w.performance i with
  | error why => exact ite_self _
  | ok performance =>
    rw [performed] at refused
    cases refused

theorem probeEnds (w : World) (m : Mishaps) (i : Invocation) (timeline : Timeline) :
    let served := probeUnder m i timeline w
    let course := w.course m i timeline
    (timeline.heardBy .ahead = true →
      served = ⟨some (.error (.cancelled i.program)), [], { w with aftermath := none }⟩ ∧
        course.process = none) ∧
    (timeline.heardBy .ahead = false →
      (∀ why, w.story i = .error why →
        served = ⟨some (.error (.spawnFailed i.program why.message)), [],
          { w with aftermath := none }⟩ ∧ course.process = none) ∧
      ∀ story, w.story i = .ok story → served.result = course.result ∧
        served.told = course.told ∧ story.Supervised m i.program w.grace timeline course) := by
  refine ⟨?_, ?_⟩
  · intro heard
    simp only [probeUnder, course, Course.of, leftBy, heard, if_true, Option.map_none, and_true]
    split <;> rfl
  · intro unheard
    refine ⟨?_, ?_⟩
    · intro why refused
      simp only [probeUnder, course, Course.of, unheard, refused, leftRefused refused,
        Bool.false_eq_true, if_false, Option.map_none, and_true]
      split <;> rfl
    · intro story started
      refine ⟨rfl, rfl, ?_⟩
      simp only [course, Course.of, unheard, started]
      exact story.courseSupervised m i.program w.grace timeline

def holding (script : Script) : World :=
  .new (Tree.add ⟨∅, []⟩ ⟨Tree.root, "p"⟩ (.file (.program script.program) 0o755)) .empty

theorem holdingStarted (script : Script) :
    (holding script).story (.new "./p") = .ok (script.story .empty 0 0) := by
  cbv

def stubborn : Script := ⟨[], [], false, [], false, none, .hangs ⟨true, none⟩⟩

def outlived : Script := ⟨[], [], false, [], false, some ([0x78], []), .exits 3⟩

def talking : Script := ⟨[0x61], [], false, [], false, some ([0x62], []), .exits 0⟩

theorem stubbornKilled :
    let ends (m : Mishaps) (moment : Moment) (script : Script) :=
      (holding script).course m (.new "./p") (.single moment .signal)
    ((ends .none .running stubborn).told = [.spawned "./p", .terminating, .killing] ∧
      (ends .none .running stubborn).process = some ⟨false, true, [15, 9], true⟩) ∧
    (ends { Mishaps.none with kill := some "no" } .running stubborn).process =
      some ⟨true, true, [15], false⟩ ∧
    (probe (.new "./p") (.single .draining .signal) (holding outlived)).result =
      some (.error (.cancelled "./p")) ∧
    (probe (.new "./q") (.single .ahead .signal) (holding outlived)).result =
      some (.error (.cancelled "./q")) ∧
    (probe (.new "./p") (.single .returned .signal) (holding talking)).result =
      some (.ok ⟨"ab", "", 0⟩) ∧
    (probeUnder { Mishaps.none with wait := some "no" } (.new "./p") .quiet
      (holding talking)).result = some (.error (.io "./p" "no")) := by
  intro ends
  have ends' (m : Mishaps) (script : Script) (timeline : Timeline)
      (unheard : timeline.heardBy .ahead = false) :=
    ((probeEnds (holding script) m (.new "./p") timeline).2 unheard).2 _ (holdingStarted script)
  have stays : ¬ Hang.Leaves ⟨true, none⟩ defaultGrace := by
    rintro ⟨ms, leaves, _⟩
    cases leaves
  refine ⟨?_, ?_, ?_, ?_, ?_, ?_⟩
  · obtain ⟨_, _, supervised⟩ := ends' .none stubborn (.single .running .signal)
      (by decide)
    obtain ⟨told, p, same, process, parts⟩ := supervised.parted rfl rfl (by decide)
    cases parts with
    | left _ leaves => exact absurd leaves stays
    | killed => exact ⟨same, process⟩
    | survived _ _ refused => cases refused
    | unasked refused => cases refused
    | untouched refused => cases refused
  · obtain ⟨_, _, supervised⟩ := ends' { Mishaps.none with kill := some "no" } stubborn
      (.single .running .signal) (by decide)
    obtain ⟨told, p, same, process, parts⟩ := supervised.parted rfl rfl (by decide)
    cases parts with
    | left _ leaves => exact absurd leaves stays
    | killed _ _ kills => cases kills
    | survived => exact process
    | unasked refused => cases refused
    | untouched refused => cases refused
  · obtain ⟨result, _, supervised⟩ := ends' .none outlived (.single .draining .signal)
      (by decide)
    exact result.trans (supervised.interrupted rfl (.held rfl rfl rfl (by decide)))
  · exact congrArg Served.result
      ((probeEnds (holding outlived) .none (.new "./q") (.single .ahead .signal)).1 (by decide)).1
  · obtain ⟨result, _, supervised⟩ := ends' .none talking (.single .returned .signal)
      (by decide)
    have through : ¬ (talking.story .empty 0 0).Interrupted .none (.single .returned .signal) := by
      rintro (⟨hangs, _⟩ | ⟨_, _, _, heard⟩)
      · cases hangs
      · exact absurd heard (by decide)
    have free : ¬ Story.Overtaken (.single .returned .signal) := by
      rintro (⟨heard, _⟩ | ⟨heard, _⟩)
      · exact absurd heard (by decide)
      · exact absurd heard (by decide)
    obtain ⟨answer, same, settles⟩ := supervised.settled rfl rfl through free fun _ => rfl
    refine result.trans (same.trans ?_)
    cases settles with
    | succeeded => cbv
    | exited ended other => cases ended; exact absurd rfl other
    | died ended => cases ended
  · obtain ⟨result, _, supervised⟩ := ends' { Mishaps.none with wait := some "no" } talking
      .quiet (by decide)
    exact result.trans (supervised.unwaited rfl fun seen => absurd seen.1 (by decide))

end World
end BuildProbe
