import BuildProbe.Cancel.Session

/-!
A session answers by its record. Whoever keeps a record of all requests knows without any channel
whether there is a signal: there is one when one was asked for before the handle was dropped. Every
token and every waiter of the channel says the same as the record, whenever it was made and when it
first looked, and those that are silent never hear anything. No signal is lost on the way and none
is made up: a signal is not kept only when nobody is left to hear it, and then nobody ever will be.
-/
namespace BuildProbe

namespace Channel

def Counted (c : Channel) : Prop := c.signalled = (c.version != 0)

structure Before (c c' : Channel) : Prop where
  keeps : c.signalled = true → c'.signalled = true
  closed : c.hasHandle = false → c'.hasHandle = false ∧ c'.signalled = c.signalled

theorem signalCounted {c : Channel} (counted : c.Counted) : c.signal.Counted := by
  unfold signal
  split
  · simp [Counted]
  · exact counted

theorem signalHeard {c : Channel} (somebody : c.listeners ≠ 0) :
    c.signal.signalled = (c.signalled || c.hasHandle) := by
  cases handle : c.hasHandle with
  | true => simp [signal, handle, somebody]
  | false => simp [signal, handle]

theorem signalHandle (c : Channel) : c.signal.hasHandle = c.hasHandle := by
  unfold signal
  split <;> rfl

theorem signalListeners (c : Channel) : c.signal.listeners = c.listeners := by
  unfold signal
  split <;> rfl

theorem signalBefore (c : Channel) : c.Before c.signal := by
  unfold signal
  split
  · rename_i possible
    have handle := (Bool.and_eq_true_iff.mp possible).1
    exact ⟨fun _ => rfl, fun gone => absurd (handle.symm.trans gone) (by decide)⟩
  · exact ⟨id, fun gone => ⟨gone, rfl⟩⟩

end Channel

namespace Wait

def Honest (c : Channel) : Wait → Prop
  | .watching seen => seen = 0
  | .abandoned => c.hasHandle = false ∧ c.signalled = false
  | .finished => c.signalled = true

theorem Honest.later {c c' : Channel} (before : c.Before c') {w : Wait} (honest : w.Honest c) :
    w.Honest c' := by
  cases w with
  | watching seen => exact honest
  | abandoned =>
    obtain ⟨gone, none⟩ := honest
    obtain ⟨gone', same⟩ := before.closed gone
    exact ⟨gone', same.trans none⟩
  | finished => exact before.keeps honest

def told (heard : Bool) : Poll := if heard then .ready else .pending

def finishes (w : Wait) : Bool := w = .finished

theorem lookHonest {c : Channel} (counted : c.Counted) :
    (look c).1 = told c.signalled ∧ (look c).2.Honest c ∧ (look c).2.finishes = c.signalled := by
  unfold look
  cases heard : c.signalled with
  | true => exact ⟨rfl, heard, rfl⟩
  | false =>
    cases handle : c.hasHandle with
    | true =>
      have unseen : c.version = 0 := by simpa [Channel.Counted, heard] using counted
      exact ⟨rfl, unseen, rfl⟩
    | false => exact ⟨rfl, ⟨handle, heard⟩, rfl⟩

theorem pollHonest {c : Channel} (counted : c.Counted) {w : Wait} (honest : w.Honest c) :
    (w.poll c).1 = (if w.finishes then .done else told c.signalled) ∧ (w.poll c).2.Honest c ∧
      (w.poll c).2.finishes = c.signalled := by
  cases w with
  | finished => exact ⟨rfl, honest, Eq.symm honest⟩
  | abandoned =>
    obtain ⟨gone, none⟩ := honest
    exact ⟨by rw [none]; rfl, ⟨gone, none⟩, none.symm⟩
  | watching seen =>
    have first : seen = 0 := honest
    subst first
    cases heard : c.signalled with
    | true =>
      have changed : (watching 0).poll c = look c := if_pos (by rw [← counted, heard])
      have looked := lookHonest counted
      rw [heard] at looked
      rw [changed]
      exact looked
    | false =>
      have unchanged : (watching 0).poll c =
          if c.hasHandle then (.pending, .watching 0) else (.pending, .abandoned) :=
        if_neg (by rw [← counted, heard]; decide)
      rw [unchanged]
      cases handle : c.hasHandle with
      | true => exact ⟨rfl, rfl, rfl⟩
      | false => exact ⟨rfl, ⟨handle, heard⟩, rfl⟩

end Wait

namespace Cancel

/- Whether a signal was asked for while the handle existed. -/
def Given (past : List Request) : Prop := Request.signal ∈ past.takeWhile (· ≠ .dropHandle)
instance (past : List Request) : Decidable (Given past) := by
  unfold Given; infer_instance

def heard (past : List Request) : Source → Bool
  | .shared => Given past
  | .silent => false

def hasHandle (past : List Request) : Bool := .dropHandle ∉ past

theorem givenCons (r : Request) (past : List Request) :
    Given (r :: past) ↔ r ≠ .dropHandle ∧ (r = .signal ∨ Given past) := by
  unfold Given
  by_cases dropped : r = .dropHandle
  · simp [dropped]
  · simp [dropped, eq_comm]

theorem givenAppend (past more : List Request) :
    Given (past ++ more) ↔ Given past ∨ .dropHandle ∉ past ∧ Given more := by
  induction past with
  | nil => simp [Given]
  | cons r past ih =>
    rw [List.cons_append, givenCons, givenCons, ih, List.mem_cons, not_or]
    by_cases dropped : r = .dropHandle
    · simp [dropped]
    · simp [dropped, Ne.symm dropped, or_assoc]

theorem givenNext (past : List Request) (r : Request) :
    Given (past ++ [r]) ↔ Given past ∨ .dropHandle ∉ past ∧ r = .signal := by
  have none : ¬Given [] := List.not_mem_nil
  rw [givenAppend, givenCons]
  by_cases signal : r = .signal
  · simp [signal]
  · simp [signal, none]

theorem heardNext (past : List Request) {r : Request} (other : r ≠ .signal) :
    heard (past ++ [r]) = heard past := by
  funext source
  cases source with
  | silent => rfl
  | shared => simp [heard, givenNext, other]

theorem handleNext (past : List Request) {r : Request} (other : r ≠ .dropHandle) :
    hasHandle (past ++ [r]) = hasHandle past := by
  simp [hasHandle, Ne.symm other]

/- What there is, by the requests alone: the tokens by whether they share the channel, and the
waiters, of which it is only known besides whether they have finished. -/
structure Record where
  past : List Request
  tokens : List (Option Source)
  waiters : List (Source × Bool)
  deriving DecidableEq, Repr

namespace Record

def start : Record := ⟨[], [some .shared], []⟩

def source? (r : Record) (token : Nat) : Option Source := (r.tokens[token]?).join

def answer (r : Record) (request : Request) : Answer × Record :=
  let r' := { r with past := r.past ++ [request] }
  match request with
  | .signal | .dropHandle => (.truth (hasHandle r.past), r')
  | .copy token => (.token r.tokens.length, { r' with tokens := r.tokens ++ [r.source? token] })
  | .never => (.token r.tokens.length, { r' with tokens := r.tokens ++ [some .silent] })
  | .dropToken token =>
    (.truth (r.source? token).isSome, { r' with tokens := r.tokens.set token none })
  | .isSignalled token =>
    match r.source? token with
    | none => (.nothing, r')
    | some source => (.truth (heard r.past source), r')
  | .wait token =>
    match r.source? token with
    | none => (.nothing, r')
    | some source =>
      (.poll (Wait.told (heard r.past source)),
        { r' with waiters := r.waiters ++ [(source, heard r.past source)] })
  | .poll waiter =>
    match r.waiters[waiter]? with
    | none => (.nothing, r')
    | some (_, true) => (.poll .done, r')
    | some (source, false) =>
      (.poll (Wait.told (heard r.past source)),
        { r' with waiters := r.waiters.set waiter (source, heard r.past source) })

def answers (r : Record) : List Request → List Answer
  | [] => []
  | request :: requests => (r.answer request).1 :: answers (r.answer request).2 requests

end Record

def Waiter.noted (w : Waiter) : Source × Bool := (w.source, w.wait.finishes)

def Source.ears : Source → Nat
  | .shared => 1
  | .silent => 0

namespace Session

variable (s : Session)

def record (past : List Request) : Record := ⟨past, s.tokens, s.waiters.map Waiter.noted⟩

def listening : Nat :=
  s.tokens.countP (· = some .shared) + s.waiters.countP (·.source = .shared)

variable {s}

theorem tokenListens {token : Nat} (live : s.source? token = some .shared) :
    0 < s.tokens.countP (· = some .shared) :=
  List.countP_pos_iff.mpr
    ⟨_, List.mem_of_getElem? (Option.join_eq_some_iff.mp live), decide_eq_true rfl⟩

theorem waiterListens {w : Waiter} (member : w ∈ s.waiters) (shared : w.source = .shared) :
    0 < s.waiters.countP (·.source = .shared) :=
  List.countP_pos_iff.mpr ⟨w, member, decide_eq_true shared⟩

theorem joinedListeners (s : Session) (source : Source) :
    s.joined source = { s.channel with listeners := s.channel.listeners + source.ears } := by
  cases source <;> rfl

theorem leftListeners (s : Session) (source : Source) :
    s.left source = { s.channel with listeners := s.channel.listeners - source.ears } := by
  cases source <;> rfl

theorem tokenListening (s : Session) (source : Source) :
    { s with tokens := s.tokens ++ [some source] }.listening = s.listening + source.ears := by
  cases source <;> simp [listening, Source.ears, Nat.add_right_comm]

theorem waiterListening (s : Session) (w : Waiter) :
    { s with waiters := s.waiters ++ [w] }.listening = s.listening + w.source.ears := by
  cases source : w.source <;> simp [listening, Source.ears, source, Nat.add_assoc]

theorem droppedListening {token : Nat} {source : Source} (live : s.source? token = some source) :
    { s with tokens := s.tokens.set token none }.listening + source.ears = s.listening := by
  obtain ⟨there, same⟩ := List.getElem?_eq_some_iff.mp (Option.join_eq_some_iff.mp live)
  simp only [listening]
  rw [List.countP_set there, same]
  cases source with
  | silent => simp [Source.ears]
  | shared =>
    have one := tokenListens live
    simp [Source.ears]
    omega

theorem waitingListening {waiter : Nat} {w : Waiter} (there : s.waiters[waiter]? = some w)
    (wait : Wait) :
    { s with waiters := s.waiters.set waiter { w with wait := wait } }.listening = s.listening := by
  obtain ⟨within, same⟩ := List.getElem?_eq_some_iff.mp there
  simp only [listening]
  rw [List.countP_set within, same]
  cases source : w.source with
  | silent => simp
  | shared =>
    have one := waiterListens (List.mem_of_getElem? there) source
    simp
    omega

end Session

/- What a session keeps to while requests are made of it. As long as there is somebody to hear it,
its channel has the signal that the requests have given. -/
structure Fits (past : List Request) (s : Session) : Prop where
  handle : s.channel.hasHandle = hasHandle past
  counted : s.channel.Counted
  signalled : s.channel.listeners ≠ 0 → s.channel.signalled = heard past .shared
  listeners : s.channel.listeners = s.listening
  honest : ∀ w ∈ s.waiters, w.wait.Honest (s.channelOf w.source)

theorem setSame {α : Type} {l : List α} {i : Nat} {a : α} (there : l[i]? = some a) :
    l.set i a = l := by
  obtain ⟨within, rfl⟩ := List.getElem?_eq_some_iff.mp there
  exact List.set_getElem_self within

theorem dropNothing {tokens : List (Option Source)} {token : Nat}
    (gone : (tokens[token]?).join = none) : tokens.set token none = tokens := by
  cases there : tokens[token]? with
  | none => exact List.set_eq_of_length_le (List.getElem?_eq_none_iff.mp there)
  | some source =>
    rw [there] at gone
    exact setSame (there.trans (congrArg some gone))

namespace Fits

variable {past : List Request} {s : Session}

theorem channelCounted (fits : Fits past s) (source : Source) : (s.channelOf source).Counted := by
  cases source with
  | shared => exact fits.counted
  | silent => rfl

theorem tokenHears (fits : Fits past s) {token : Nat} (live : s.source? token = some .shared) :
    s.channel.listeners ≠ 0 := by
  have one := Session.tokenListens live
  rw [fits.listeners, Session.listening]
  omega

theorem tokenHeard (fits : Fits past s) {token : Nat} {source : Source}
    (live : s.source? token = some source) : (s.channelOf source).signalled = heard past source := by
  cases source with
  | silent => rfl
  | shared => exact fits.signalled (fits.tokenHears live)

theorem waiterHeard (fits : Fits past s) {w : Waiter} (member : w ∈ s.waiters) :
    (s.channelOf w.source).signalled = heard past w.source := by
  cases source : w.source with
  | silent => rfl
  | shared =>
    have one := Session.waiterListens member source
    refine fits.signalled ?_
    rw [fits.listeners, Session.listening]
    omega

theorem honestLater (fits : Fits past s) {s' : Session} (before : s.channel.Before s'.channel) :
    ∀ w ∈ s.waiters, w.wait.Honest (s'.channelOf w.source) := by
  intro w member
  have honest := fits.honest w member
  cases source : w.source with
  | silent =>
    rw [source] at honest
    exact honest
  | shared =>
    rw [source] at honest
    exact honest.later before

theorem signal (fits : Fits past s) :
    Fits (past ++ [.signal]) { s with channel := s.channel.signal } := by
  refine ⟨?_, Channel.signalCounted fits.counted, ?_, ?_,
    fits.honestLater (Channel.signalBefore _)⟩
  · rw [Channel.signalHandle, fits.handle, handleNext _ (by simp)]
  · intro somebody
    rw [Channel.signalListeners] at somebody
    rw [Channel.signalHeard somebody, fits.signalled somebody, fits.handle]
    simp [heard, hasHandle, givenNext]
  · rw [Channel.signalListeners, fits.listeners]
    rfl

theorem dropHandle (fits : Fits past s) :
    Fits (past ++ [.dropHandle]) { s with channel := s.channel.dropHandle } := by
  refine ⟨by simp [Channel.dropHandle, hasHandle], fits.counted, ?_, fits.listeners,
    fits.honestLater ⟨id, fun _ => ⟨rfl, rfl⟩⟩⟩
  rw [heardNext _ (by simp)]
  exact fits.signalled

theorem aside (fits : Fits past s) (request : Request) (notSignal : request ≠ .signal)
    (notDrop : request ≠ .dropHandle) {listeners : Nat} {tokens : List (Option Source)}
    {waiters : List Waiter} (somebody : listeners ≠ 0 → s.channel.listeners ≠ 0)
    (count : listeners = (Session.mk s.channel tokens waiters).listening)
    (honest : ∀ w ∈ waiters, w.wait.Honest (s.channelOf w.source)) :
    Fits (past ++ [request])
      ⟨{ s.channel with listeners := listeners }, tokens, waiters⟩ := by
  refine ⟨?_, fits.counted, ?_, count, fun w member => ?_⟩
  · rw [handleNext _ notDrop]
    exact fits.handle
  · intro left
    rw [heardNext _ notSignal]
    exact fits.signalled (somebody left)
  · have honest := honest w member
    cases source : w.source with
    | silent =>
      rw [source] at honest
      exact honest
    | shared =>
      rw [source] at honest
      exact honest.later ⟨id, fun gone => ⟨gone, rfl⟩⟩

theorem earsHear (fits : Fits past s) {token : Nat} {source : Source}
    (live : s.source? token = some source) (left : s.channel.listeners + source.ears ≠ 0) :
    s.channel.listeners ≠ 0 := by
  cases source with
  | silent => exact left
  | shared => exact fits.tokenHears live

theorem copy (fits : Fits past s) (token : Nat) :
    Fits (past ++ [.copy token]) (s.answer (.copy token)).2 := by
  simp only [Session.answer]
  cases live : s.source? token with
  | none =>
    refine fits.aside (.copy token) (by simp) (by simp) id ?_ fits.honest
    rw [fits.listeners]
    simp [Session.listening]
  | some source =>
    dsimp only
    rw [s.joinedListeners]
    refine fits.aside (.copy token) (by simp) (by simp) (fits.earsHear live) ?_ fits.honest
    rw [fits.listeners, ← s.tokenListening]

theorem dropToken (fits : Fits past s) (token : Nat) :
    Fits (past ++ [.dropToken token]) (s.answer (.dropToken token)).2 := by
  simp only [Session.answer]
  cases live : s.source? token with
  | none => exact fits.aside (.dropToken token) (by simp) (by simp) id fits.listeners fits.honest
  | some source =>
    dsimp only
    rw [s.leftListeners]
    refine fits.aside (.dropToken token) (by simp) (by simp) (fun left => by omega) ?_ fits.honest
    have fewer : Session.listening ⟨s.channel, s.tokens.set token none, s.waiters⟩ + source.ears =
      s.listening := Session.droppedListening live
    rw [fits.listeners]
    omega

theorem wait (fits : Fits past s) (token : Nat) :
    Fits (past ++ [.wait token]) (s.answer (.wait token)).2 := by
  simp only [Session.answer]
  cases live : s.source? token with
  | none => exact fits.aside (.wait token) (by simp) (by simp) id fits.listeners fits.honest
  | some source =>
    obtain ⟨_, honest, _⟩ := Wait.lookHonest (fits.channelCounted source)
    dsimp only
    rw [s.joinedListeners]
    refine fits.aside (.wait token) (by simp) (by simp) (fits.earsHear live) ?_ ?_
    · rw [fits.listeners, ← s.waiterListening ⟨source, _⟩]
    · intro w member
      rcases List.mem_append.mp member with old | new
      · exact fits.honest w old
      · rw [List.mem_singleton.mp new]
        exact honest

theorem poll (fits : Fits past s) (waiter : Nat) :
    Fits (past ++ [.poll waiter]) (s.answer (.poll waiter)).2 := by
  simp only [Session.answer]
  cases there : s.waiters[waiter]? with
  | none => exact fits.aside (.poll waiter) (by simp) (by simp) id fits.listeners fits.honest
  | some w =>
    refine fits.aside (.poll waiter) (by simp) (by simp) id ?_ ?_
    · rw [fits.listeners, ← Session.waitingListening there]
    · intro w' member
      rcases List.mem_or_eq_of_mem_set member with old | new
      · exact fits.honest w' old
      · have known := List.mem_of_getElem? there
        rw [new]
        exact (Wait.pollHonest (fits.channelCounted w.source) (fits.honest w known)).2.1

theorem next (fits : Fits past s) (request : Request) :
    Fits (past ++ [request]) (s.answer request).2 := by
  cases request with
  | signal => exact fits.signal
  | dropHandle => exact fits.dropHandle
  | copy token => exact fits.copy token
  | never =>
    refine fits.aside .never (by simp) (by simp) id ?_ fits.honest
    exact fits.listeners.trans (s.tokenListening .silent).symm
  | dropToken token => exact fits.dropToken token
  | isSignalled token =>
    have same : (s.answer (.isSignalled token)).2 = s := by
      simp only [Session.answer]
      split <;> rfl
    rw [same]
    exact fits.aside (.isSignalled token) (by simp) (by simp) id fits.listeners fits.honest
  | wait token => exact fits.wait token
  | poll waiter => exact fits.poll waiter

theorem recorded (fits : Fits past s) (request : Request) :
    (s.record past).answer request =
      ((s.answer request).1, (s.answer request).2.record (past ++ [request])) := by
  have sources : ∀ token, (s.record past).source? token = s.source? token := fun _ => rfl
  cases request with
  | signal =>
    have handle := congrArg Answer.truth fits.handle.symm
    exact Prod.ext handle rfl
  | dropHandle =>
    have handle := congrArg Answer.truth fits.handle.symm
    exact Prod.ext handle rfl
  | copy token =>
    simp only [Session.answer, Record.answer, sources]
    cases live : s.source? token <;> rfl
  | never => rfl
  | dropToken token =>
    simp only [Session.answer, Record.answer, sources]
    cases live : s.source? token with
    | none =>
      have gone : s.tokens.set token none = s.tokens := dropNothing live
      simp only [Session.record, gone]
      rfl
    | some source => rfl
  | isSignalled token =>
    simp only [Session.answer, Record.answer, sources]
    cases live : s.source? token with
    | none => rfl
    | some source => exact Prod.ext (congrArg Answer.truth (fits.tokenHeard live).symm) rfl
  | wait token =>
    simp only [Session.answer, Record.answer, sources]
    cases live : s.source? token with
    | none => rfl
    | some source =>
      obtain ⟨told, _, finishes⟩ := Wait.lookHonest (fits.channelCounted source)
      rw [fits.tokenHeard live] at told finishes
      refine Prod.ext (congrArg Answer.poll told.symm) ?_
      simp [Session.record, Waiter.noted, finishes]
  | poll waiter =>
    have noted : (s.record past).waiters[waiter]? = s.waiters[waiter]?.map Waiter.noted :=
      List.getElem?_map
    simp only [Session.answer, Record.answer, noted]
    cases there : s.waiters[waiter]? with
    | none => rfl
    | some w =>
      have member := List.mem_of_getElem? there
      obtain ⟨told, _, finishes⟩ :=
        Wait.pollHonest (fits.channelCounted w.source) (fits.honest w member)
      rw [fits.waiterHeard member] at told finishes
      cases done : w.wait.finishes with
      | true =>
        have finished : w.wait = .finished := of_decide_eq_true done
        have same : s.waiters.set waiter { w with wait := .finished } = s.waiters :=
          setSame (there.trans (by rw [← finished]))
        have noted : w.noted = (w.source, true) := Prod.ext rfl done
        simp only [Option.map_some, noted, finished, Wait.poll, Session.record, same]
      | false =>
        rw [done] at told
        have noted : w.noted = (w.source, false) := Prod.ext rfl done
        have later : Waiter.noted { w with wait := (w.wait.poll (s.channelOf w.source)).2 } =
            (w.source, heard past w.source) := Prod.ext rfl finishes
        simp only [Option.map_some, noted, Session.record, List.map_set, later]
        exact Prod.ext (congrArg Answer.poll told.symm) rfl

theorem run (fits : Fits past s) (requests : List Request) :
    s.answers requests = (s.record past).answers requests := by
  induction requests generalizing past s with
  | nil => rfl
  | cons request requests ih =>
    rw [Session.answers, Record.answers, fits.recorded request, ih (fits.next request)]

theorem start : Fits [] Session.start :=
  ⟨rfl, rfl, fun _ => rfl, rfl, fun _ member => absurd member List.not_mem_nil⟩

end Fits

theorem Session.answersRecorded (requests : List Request) :
    Session.start.answers requests = Record.start.answers requests ∧
      ∀ more, Given requests → Given (requests ++ more) := by
  refine ⟨Fits.start.run requests, fun more given => ?_⟩
  exact (givenAppend requests more).mpr (.inl given)

theorem Session.lateHeard :
    let requests : List Request := [.copy 0, .wait 0, .dropToken 0, .signal, .dropHandle, .poll 0,
      .poll 0, .isSignalled 1, .wait 1, .never, .wait 2, .isSignalled 0]
    Session.start.answers requests = [.token 1, .poll .pending, .truth true, .truth true,
        .truth true, .poll .ready, .poll .done, .truth true, .poll .ready, .token 2,
        .poll .pending, .nothing] ∧
      Given (requests ++ [.signal, .isSignalled 1]) := by
  intro requests
  obtain ⟨answers, given⟩ := answersRecorded requests
  exact ⟨answers.trans (by decide), given _ (by decide)⟩

end Cancel
end BuildProbe
