import BuildProbe.Probe.Supervision
import BuildProbe.Proofs.Cancel.Hearing

/-!
What a signal can do to the course of a probe. Heard in time, it makes the course cancelled, and
a probe that hangs has no other end. Unheard, it leaves the course what it would have been. Only
a probe that was started and came to its own end gives any output, and then all of it.
-/
namespace BuildProbe

open Text (Bytes)

namespace Story

def printed (s : Story) (stream : Stream) : Bytes :=
  ((s.writes ++ s.late.getD []).filter (·.stream = stream)).flatMap (·.bytes)

theorem gatherPrinted (stream : Stream) (chunks : List Chunk) :
    Chunk.gather stream chunks = (chunks.filter (·.stream = stream)).flatMap (·.bytes) := by
  induction chunks with
  | nil => rfl
  | cons c rest ih =>
    rw [Chunk.gather, List.flatMap_cons, ← Chunk.gather, ih, List.filter_cons]
    split <;> simp_all

theorem capturedPrinted (s : Story) (stream : Stream) : s.captured stream = s.printed stream := by
  rw [captured, gatherPrinted, gatherPrinted, printed, List.filter_append, List.flatMap_append]

def due (s : Story) : Moment :=
  match s.ending with
  | .hangs _ => .running
  | _ => .returned

theorem dueAhead (s : Story) : Moment.ahead.upTo <+: s.due.upTo := by
  unfold due
  split <;> decide

theorem hangCases (s : Story) : (∃ h, s.ending = .hangs h) ∨ s.hang? = none := by
  unfold hang?
  cases s.ending with
  | hangs h => exact .inl ⟨h, rfl⟩
  | _ => exact .inr rfl

theorem endedElse {s : Story} (ended : s.hang? = none) : ∀ h, s.ending ≠ .hangs h := by
  intro h hangs
  simp [hang?, hangs] at ended

def SignalSeen (timeline : Timeline) (m : Moment) : Prop :=
  timeline.heardBy m = true ∧ timeline.signalFirst m = true

/- The signal is heard while the streams are read, and the reader waits or sees it first. -/
def Drops (s : Story) (m : Mishaps) (timeline : Timeline) : Prop :=
  timeline.heardBy .draining = true ∧
    (s.held m = true ∨ timeline.signalFirst .draining = true)

inductive Goes (s : Story) (m : Mishaps) (program : String) (grace : Nat) (timeline : Timeline) :
    Course → Prop where
  | terminated (heard : timeline.heardBy .running = true)
      (first : s.waited m = false ∨ timeline.signalFirst .running = true) :
      Goes s m program grace timeline ⟨some (.error (.cancelled program)),
        .spawned program :: (s.terminated m grace).1, some ((s.terminated m grace).2.release m)⟩
  | unwaited {why} (refused : m.wait = some why) (unseen : ¬ SignalSeen timeline .running) :
      Goes s m program grace timeline ⟨some (.error (.io program why)), [.spawned program],
        some ((Process.start s).release m)⟩
  | endless {h} (waits : m.wait = none) (hangs : s.ending = .hangs h)
      (unheard : timeline.heardBy .running = false) :
      Goes s m program grace timeline ⟨none, [.spawned program], some (.start s)⟩
  | dropped (waits : m.wait = none) (ended : s.hang? = none)
      (unseen : ¬ SignalSeen timeline .running) (drops : s.Drops m timeline) :
      Goes s m program grace timeline ⟨some (.error (.cancelled program)), [.spawned program],
        some (Process.start s).reaped⟩
  | unread {why} (waits : m.wait = none) (ended : s.hang? = none)
      (unseen : ¬ SignalSeen timeline .running) (stays : ¬ s.Drops m timeline)
      (refused : unread? m = some why) :
      Goes s m program grace timeline ⟨some (.error (.io program why)), [.spawned program],
        some (Process.start s).reaped⟩
  | settled (waits : m.wait = none) (ended : s.hang? = none)
      (unseen : ¬ SignalSeen timeline .running) (stays : ¬ s.Drops m timeline)
      (reads : unread? m = none) :
      Goes s m program grace timeline ⟨some (s.verdict program),
        .spawned program :: s.stderrEvents program, some (Process.start s).reaped⟩

theorem courseGoes (s : Story) (m : Mishaps) (program : String) (grace : Nat)
    (timeline : Timeline) :
    s.Goes m program grace timeline (s.course m program grace timeline) := by
  unfold course
  dsimp only
  split
  · rename_i seen
    obtain ⟨heard, first⟩ := Bool.and_eq_true_iff.mp seen
    exact .terminated heard (by simpa using first)
  · rename_i unseen
    have unseen' : ¬ SignalSeen timeline .running := fun ⟨heard, first⟩ =>
      unseen (by simp [heard, first])
    split
    · rename_i why refused
      exact .unwaited refused unseen'
    · rename_i waits
      rcases s.hangCases with ⟨h, hangs⟩ | ended
      · have unheard : timeline.heardBy .running = false := by
          simpa [waited, waits, hang?, hangs] using unseen
        rw [if_pos (by simp [hang?, hangs])]
        exact .endless waits hangs unheard
      · rw [if_neg (by simp [ended])]
        split
        · rename_i drops
          exact .dropped waits ended unseen' (by simpa [Drops] using drops)
        · rename_i stays
          have stays' : ¬ s.Drops m timeline := fun drops => stays (by simpa [Drops] using drops)
          split
          · rename_i why refused
            exact .unread waits ended unseen' stays' refused
          · rename_i reads
            exact .settled waits ended unseen' stays' reads

theorem verdictOk {s : Story} {program : String} {captured : Captured}
    (done : s.verdict program = .ok captured) : captured = ⟨s.stdout, s.stderr, 0⟩ := by
  unfold verdict at done
  split at done
  · exact (Except.ok.inj done).symm
  · cases done

end Story

namespace Course

variable {launched : Except Refusal Story} {m : Mishaps} {program : String} {grace : Nat}
  {timeline : Timeline}

theorem courseOk {captured : Captured}
    (done : (Course.of launched m program grace timeline).result = some (.ok captured)) :
    timeline.heardBy .ahead = false ∧
      ∃ story, launched = .ok story ∧ captured = ⟨story.stdout, story.stderr, 0⟩ := by
  unfold Course.of at done
  split at done
  · cases done
  · rename_i unheard
    refine ⟨by simpa using unheard, ?_⟩
    cases launched with
    | error why => cases done
    | ok story =>
      have goes := story.courseGoes m program grace timeline
      dsimp only at done
      generalize story.course m program grace timeline = course at goes done
      cases goes with
      | settled => exact ⟨story, rfl, Story.verdictOk (Option.some.inj done)⟩
      | _ => cases done

theorem courseSpawn {cause : ProbeFailure}
    (failed : (Course.of launched m program grace timeline).result = some (.error cause))
    (spawn : cause.stage = .spawn) : ∃ why, launched = .error why := by
  cases launched with
  | error why => exact ⟨why, rfl⟩
  | ok story =>
    unfold Course.of at failed
    split at failed
    · cases failed
      cases spawn
    · have goes := story.courseGoes m program grace timeline
      dsimp only at failed
      generalize story.course m program grace timeline = course at goes failed
      cases goes with
      | settled =>
        have verdict := Option.some.inj failed
        unfold Story.verdict at verdict
        split at verdict
        · cases verdict
        · cases verdict
          cases spawn
      | endless => cases failed
      | _ =>
        cases failed
        cases spawn

theorem courseUnheard {story : Story} (unheard : timeline.heardBy story.due = false)
    (program : String) (grace : Nat) :
    Course.of (.ok story) .none program grace timeline =
      Course.of (.ok story) .none program grace .quiet := by
  have ahead := Timeline.unheardEarlier story.dueAhead unheard
  have running : timeline.heardBy .running = false := by
    refine Timeline.unheardEarlier ?_ unheard
    unfold Story.due
    split <;> decide
  simp only [Course.of, ahead, Timeline.quietUnheard, Bool.false_eq_true, if_false, Story.course,
    running, Bool.false_and]
  rcases story.hangCases with ⟨h, hangs⟩ | ended
  · have hanging : story.hang?.isSome = true := by simp [Story.hang?, hangs]
    simp only [Mishaps.none, hanging, if_true]
  · have due : story.due = .returned := by
      unfold Story.due
      split
      · rename_i h hangs
        exact absurd hangs (Story.endedElse ended h)
      · rfl
    have draining : timeline.heardBy .draining = false :=
      Timeline.unheardEarlier (by decide) (due ▸ unheard)
    simp only [draining, Bool.false_and, Bool.false_eq_true, if_false]

theorem refusedUnheard (unheard : timeline.heardBy .ahead = false) (why : Refusal) (m : Mishaps)
    (program : String) (grace : Nat) :
    Course.of (.error why) m program grace timeline =
      Course.of (.error why) m program grace .quiet := by
  simp only [Course.of, unheard, Timeline.quietUnheard]

theorem courseResult (launched : Except Refusal Story) (m : Mishaps) (program : String)
    (grace : Nat) (timeline : Timeline) :
    (Course.of launched m program grace timeline).result = some (.error (.cancelled program)) ∨
      (Course.of launched m program grace timeline).result =
        (Course.of launched m program grace .quiet).result := by
  cases launched with
  | error why =>
    cases heard : timeline.heardBy .ahead with
    | true => exact .inl (by simp only [Course.of, heard, if_true])
    | false => exact .inr (congrArg Course.result (refusedUnheard heard why m program grace))
  | ok story =>
    simp only [Course.of, Timeline.quietUnheard, Bool.false_eq_true, if_false, Story.course,
      Bool.false_and]
    split
    · exact .inl rfl
    · split
      · exact .inl rfl
      · cases m.wait with
        | some why => exact .inr rfl
        | none =>
          dsimp only
          split
          · exact .inr rfl
          · split
            · exact .inl rfl
            · exact .inr rfl

theorem hangingHeard {story : Story} {h : Hang} (hangs : story.ending = .hangs h)
    (heard : timeline.heardBy .running = true) (program : String) (grace : Nat) :
    (Course.of (.ok story) .none program grace timeline).result =
      some (.error (.cancelled program)) := by
  have waited : story.waited .none = false := by
    simp [Story.waited, Mishaps.none, Story.hang?, hangs]
  simp only [Course.of, Story.course, heard, waited]
  split <;> rfl

theorem hangingUnheard {story : Story} {h : Hang} (hangs : story.ending = .hangs h)
    (unheard : timeline.heardBy .running = false) (program : String) (grace : Nat) :
    (Course.of (.ok story) .none program grace timeline).result = none := by
  have ahead : timeline.heardBy .ahead = false := Timeline.unheardEarlier (by decide) unheard
  have hanging : story.hang?.isSome = true := by simp [Story.hang?, hangs]
  simp only [Course.of, ahead, Story.course, unheard, Mishaps.none, hanging, Bool.false_eq_true,
    if_false, Bool.false_and, if_true]

theorem courseSilent (silent : (Course.of launched m program grace timeline).result = none) :
    ∃ story h, launched = .ok story ∧ story.ending = .hangs h ∧
      timeline.heardBy .running = false := by
  unfold Course.of at silent
  split at silent
  · cases silent
  · cases launched with
    | error why => cases silent
    | ok story =>
      have goes := story.courseGoes m program grace timeline
      dsimp only at silent
      generalize story.course m program grace timeline = course at goes silent
      cases goes with
      | endless waits hangs unheard => exact ⟨story, _, rfl, hangs, unheard⟩
      | _ => cases silent

end Course
end BuildProbe
