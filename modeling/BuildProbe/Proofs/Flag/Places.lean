import BuildProbe.Flag.Cursor
import BuildProbe.Proofs.Text.Rows

/-!
Cursors and places. A cursor holds text that it has not read and looks for the next directive only
when it is asked. Beside it stands a reader who has the list of all flags from the start and only
keeps a place in it. However many cursors are copied from one another, and whatever is asked of
them in whatever order, they answer as such readers do, each at a place of its own.
-/
namespace BuildProbe
namespace Text

theorem firstLineCons {l : List Char} (plain : '\n' ∉ l) (rest : List Char) :
    firstLine? (l ++ '\n' :: rest) = some (chomp l, rest) := by
  have past : ∀ c ∈ l, (c != '\n') = true := fun c member => by
    simpa using fun feed : c = '\n' => plain (feed ▸ member)
  have front : (l ++ '\n' :: rest).takeWhile (· != '\n') = l := by
    rw [List.takeWhile_append_of_pos past]
    simp
  have behind : (l ++ '\n' :: rest).dropWhile (· != '\n') = '\n' :: rest := by
    rw [List.dropWhile_append_of_pos past]
    simp
  cases whole : l ++ '\n' :: rest with
  | nil => simp at whole
  | cons c cs =>
    rw [whole] at front behind
    simp only [firstLine?, front, behind]

theorem firstLinePlain {l : List Char} (plain : '\n' ∉ l) (filled : l ≠ []) :
    firstLine? l = some (l, []) := by
  have past : ∀ c ∈ l, (c != '\n') = true := fun c member => by
    simpa using fun feed : c = '\n' => plain (feed ▸ member)
  have behind : (l ++ []).dropWhile (· != '\n') = [] := List.dropWhile_append_of_pos past
  rw [List.append_nil] at behind
  cases l with
  | nil => exact absurd rfl filled
  | cons c cs => simp only [firstLine?, behind]

theorem linesFirst (cs : List Char) :
    lines cs = match firstLine? cs with
      | none => []
      | some (l, rest) => l :: lines rest := by
  induction cs using rowInduction with
  | last l plain =>
    by_cases blank : l = []
    · rw [blank]
      rfl
    · rw [firstLinePlain plain blank, linesPlain plain, unterminated, if_neg blank]
      rfl
  | row l rest plain ih => rw [firstLineCons plain, linesCons plain]

end Text

namespace Cursor

def pending (cs : List Char) : List Flag := (Text.lines cs).filterMap Flag.ofLine?

theorem seekPending (cs : List Char) :
    pending cs = match seek? cs with
      | none => []
      | some (f, rest) => f :: pending rest := by
  fun_induction seek? cs with
  | case1 cs none => rw [pending, Text.linesFirst, none]; rfl
  | case2 cs line rest first f asks =>
    rw [pending, Text.linesFirst, first, List.filterMap_cons, asks]
    rfl
  | case3 cs line rest first silent ih =>
    rw [pending, Text.linesFirst, first, List.filterMap_cons, silent]
    exact ih

theorem nextPending (c : Cursor) :
    c.next.1 = (pending c.unread).head? ∧ pending c.next.2.unread = (pending c.unread).tail := by
  have ahead := seekPending c.unread
  unfold next
  cases found : seek? c.unread with
  | none =>
    rw [found] at ahead
    exact ⟨by rw [ahead]; rfl, by rw [ahead]; rfl⟩
  | some e =>
    obtain ⟨f, rest⟩ := e
    rw [found] at ahead
    exact ⟨by rw [ahead]; rfl, by rw [ahead]; rfl⟩

theorem collectPending (cs : List Char) (seen : List Flag) :
    collect cs seen = seen.reverse ++ pending cs := by
  fun_induction collect cs seen with
  | case1 cs seen none => rw [seekPending, none, List.append_nil]
  | case2 cs seen f rest found ih =>
    rw [ih, seekPending cs, found, List.reverse_cons, List.append_assoc, List.singleton_append]

theorem aheadPending (c : Cursor) : c.ahead = pending c.unread := collectPending c.unread []

theorem takeOntoPending (n : Nat) (c : Cursor) (seen : List Flag) :
    (takeOnto n c seen).1 = seen.reverse ++ (pending c.unread).take n ∧
      pending (takeOnto n c seen).2.unread = (pending c.unread).drop n := by
  induction n generalizing c seen with
  | zero => simp [takeOnto]
  | succ n ih =>
    obtain ⟨answer, after⟩ := nextPending c
    unfold takeOnto
    cases asked : c.next with
    | mk found c' =>
      rw [asked] at answer after
      dsimp only at answer after
      cases ahead : pending c.unread with
      | nil =>
        rw [ahead] at answer after
        subst answer
        simpa using after
      | cons f rest =>
        rw [ahead] at answer after
        subst answer
        obtain ⟨taken, left⟩ := ih c' (f :: seen)
        exact ⟨by simpa [after] using taken, by simpa [after] using left⟩

theorem takePending (n : Nat) (c : Cursor) :
    (c.take n).1 = (pending c.unread).take n ∧
      pending (c.take n).2.unread = (pending c.unread).drop n :=
  takeOntoPending n c []

theorem skipPending (n : Nat) (c : Cursor) :
    (c.skip n).1 = (pending c.unread)[n]? ∧
      pending (c.skip n).2.unread = (pending c.unread).drop (n + 1) := by
  obtain ⟨answer, after⟩ := nextPending (c.take n).2
  rw [(takePending n c).2] at answer after
  rw [List.head?_drop] at answer
  rw [List.tail_drop] at after
  exact ⟨answer, after⟩

def Request.moved? : Request → Option Nat
  | .next i | .rest i | .take i _ | .skip i _ => some i
  | .copy _ | .count _ | .last _ => none

def after (cursors : List Cursor) : List Request → List Cursor
  | [] => cursors
  | r :: rs => after (answer cursors r).2 rs

end Cursor

/- Readers of one list of flags. Each has a place, the number of flags that it is past. -/
namespace Place

variable (flags : List Flag)

def onward (place n : Nat) : Nat := min (place + n) flags.length

def among (places : List Nat) (i : Nat) : Nat := places.getD i flags.length

def answer (places : List Nat) : Cursor.Request → Cursor.Answer × List Nat
  | .next i =>
    let place := among flags places i
    (.flag flags[place]?, places.set i (onward flags place 1))
  | .copy i => (.number places.length, places ++ [among flags places i])
  | .rest i => (.flags (flags.drop (among flags places i)), places.set i flags.length)
  | .take i n =>
    let place := among flags places i
    (.flags ((flags.drop place).take n), places.set i (onward flags place n))
  | .skip i n =>
    let place := among flags places i
    (.flag flags[place + n]?, places.set i (onward flags place (n + 1)))
  | .count i => (.number (flags.length - among flags places i), places)
  | .last i => (.flag (flags.drop (among flags places i)).getLast?, places)

def answers (places : List Nat) : List Cursor.Request → List Cursor.Answer
  | [] => []
  | r :: rs => (answer flags places r).1 :: answers (answer flags places r).2 rs

theorem dropOnward (place n : Nat) :
    flags.drop (onward flags place n) = (flags.drop place).drop n := by
  rw [List.drop_drop, onward]
  rcases Nat.le_total (place + n) flags.length with within | beyond
  · rw [Nat.min_eq_left within]
  · rw [Nat.min_eq_right beyond, List.drop_length, List.drop_of_length_le beyond]

end Place

namespace Cursor

variable {flags : List Flag} {cursors : List Cursor} {places : List Nat}

def Placed (flags : List Flag) (cursors : List Cursor) (places : List Nat) : Prop :=
  cursors.map (fun c => pending c.unread) = places.map (flags.drop ·)

theorem Placed.among (placed : Placed flags cursors places) (i : Nat) :
    pending (among cursors i).unread = flags.drop (Place.among flags places i) := by
  have same : cursors[i]?.map (fun c => pending c.unread) = places[i]?.map (flags.drop ·) := by
    rw [← List.getElem?_map, ← List.getElem?_map, placed]
  rw [Cursor.among, Place.among, List.getD_eq_getElem?_getD, List.getD_eq_getElem?_getD]
  cases there : cursors[i]? with
  | none =>
    rw [there] at same
    rw [Option.map_eq_none_iff.mp same.symm]
    exact List.drop_length.symm
  | some c =>
    rw [there] at same
    obtain ⟨place, kept, ahead⟩ := Option.map_eq_some_iff.mp same.symm
    rw [kept]
    exact ahead.symm

theorem Placed.set (placed : Placed flags cursors places) (i : Nat) {c : Cursor} {place : Nat}
    (ahead : pending c.unread = flags.drop place) :
    Placed flags (cursors.set i c) (places.set i place) := by
  rw [Placed, List.map_set, List.map_set, placed, ahead]

theorem Placed.length (placed : Placed flags cursors places) : cursors.length = places.length := by
  simpa using congrArg List.length placed

theorem answerPlaced (placed : Placed flags cursors places) (r : Request) :
    (answer cursors r).1 = (Place.answer flags places r).1 ∧
      Placed flags (answer cursors r).2 (Place.answer flags places r).2 := by
  cases r with
  | next i =>
    obtain ⟨found, left⟩ := nextPending (among cursors i)
    rw [placed.among] at found left
    refine ⟨congrArg Answer.flag (found.trans List.head?_drop), placed.set i ?_⟩
    exact left.trans (List.drop_one.symm.trans (Place.dropOnward ..).symm)
  | copy i =>
    refine ⟨congrArg Answer.number placed.length, ?_⟩
    have same := placed.among i
    unfold Placed answer Place.answer
    rw [List.map_append, List.map_append, placed]
    simp [same]
  | rest i =>
    refine ⟨congrArg Answer.flags ((aheadPending _).trans (placed.among i)), placed.set i ?_⟩
    rw [List.drop_length]
    rfl
  | take i n =>
    obtain ⟨found, left⟩ := takePending n (among cursors i)
    rw [placed.among] at found left
    refine ⟨congrArg Answer.flags found, placed.set i ?_⟩
    exact left.trans (Place.dropOnward ..).symm
  | skip i n =>
    obtain ⟨found, left⟩ := skipPending n (among cursors i)
    rw [placed.among] at found left
    refine ⟨congrArg Answer.flag (found.trans List.getElem?_drop), placed.set i ?_⟩
    exact left.trans (Place.dropOnward ..).symm
  | count i =>
    refine ⟨congrArg Answer.number ?_, placed⟩
    rw [aheadPending, placed.among, List.length_drop]
  | last i =>
    refine ⟨congrArg Answer.flag ?_, placed⟩
    rw [aheadPending, placed.among]

theorem answersPlaced (placed : Placed flags cursors places) (requests : List Request) :
    answers cursors requests = Place.answers flags places requests := by
  induction requests generalizing cursors places with
  | nil => rfl
  | cons r rs ih =>
    obtain ⟨same, placed⟩ := answerPlaced placed r
    have first : answers cursors (r :: rs) =
        (answer cursors r).1 :: answers (answer cursors r).2 rs := rfl
    rw [first, Place.answers, same, ih placed]

theorem amongSet (cursors : List Cursor) (c : Cursor) {i j : Nat} (there : i < cursors.length) :
    among (cursors.set j c) i = if j = i then c else among cursors i := by
  unfold among
  by_cases same : j = i
  · subst same
    simp [there]
  · simp [same, List.getElem?_set_ne same]

theorem amongCopied (cursors : List Cursor) (c : Cursor) {i : Nat} (there : i < cursors.length) :
    among (cursors ++ [c]) i = among cursors i := by
  rw [among, among, List.getD_eq_getElem?_getD, List.getElem?_append_left there]
  rfl

def GoesOn (cursors cursors' : List Cursor) (i : Nat) : Prop :=
  i < cursors'.length ∧
    ∃ n, pending (among cursors' i).unread = (pending (among cursors i).unread).drop n

theorem GoesOn.same {cursors' : List Cursor} {i : Nat} (there : i < cursors'.length)
    (same : among cursors' i = among cursors i) : GoesOn cursors cursors' i :=
  ⟨there, 0, by rw [same, List.drop_zero]⟩

theorem GoesOn.set {i : Nat} (there : i < cursors.length) {j n : Nat} {c : Cursor}
    (ahead : pending c.unread = (pending (Cursor.among cursors j).unread).drop n) :
    GoesOn cursors (cursors.set j c) i := by
  have kept : i < (cursors.set j c).length := by rwa [List.length_set]
  have now := amongSet cursors c (j := j) there
  by_cases same : j = i
  · rw [if_pos same] at now
    exact ⟨kept, n, by rw [now, ahead, same]⟩
  · rw [if_neg same] at now
    exact GoesOn.same kept now

theorem GoesOn.trans {cursors' cursors'' : List Cursor} {i : Nat} (first : GoesOn cursors cursors' i)
    (second : GoesOn cursors' cursors'' i) : GoesOn cursors cursors'' i := by
  obtain ⟨_, n, ahead⟩ := first
  obtain ⟨there, m, ahead'⟩ := second
  exact ⟨there, n + m, by rw [ahead', ahead, List.drop_drop]⟩

theorem answerOnward {i : Nat} (there : i < cursors.length) (r : Request) :
    GoesOn cursors (answer cursors r).2 i := by
  cases r with
  | next j => exact GoesOn.set there ((nextPending _).2.trans List.drop_one.symm)
  | copy j =>
    refine GoesOn.same ?_ (amongCopied cursors _ there)
    rw [answer, List.length_append]
    exact Nat.lt_add_right _ there
  | rest j => exact GoesOn.set there (List.drop_length).symm
  | take j n => exact GoesOn.set there (takePending n _).2
  | skip j n => exact GoesOn.set there (skipPending n _).2
  | count j => exact GoesOn.same there rfl
  | last j => exact GoesOn.same there rfl

theorem afterOnward {i : Nat} (there : i < cursors.length) (requests : List Request) :
    GoesOn cursors (after cursors requests) i := by
  induction requests generalizing cursors with
  | nil => exact GoesOn.same there rfl
  | cons r rs ih =>
    have step := answerOnward there r
    exact step.trans (ih step.1)

theorem answerUnmoved {i : Nat} (there : i < cursors.length) {r : Request}
    (unmoved : r.moved? ≠ some i) : among (answer cursors r).2 i = among cursors i := by
  have aside : ∀ {j : Nat} (c : Cursor), some j ≠ some i →
      among (cursors.set j c) i = among cursors i := by
    intro j c other
    rw [amongSet cursors c there, if_neg fun same => other (congrArg some same)]
  cases r with
  | next j => exact aside _ unmoved
  | copy j => exact amongCopied cursors _ there
  | rest j => exact aside _ unmoved
  | take j n => exact aside _ unmoved
  | skip j n => exact aside _ unmoved
  | count j => rfl
  | last j => rfl

theorem afterUnmoved {i : Nat} (there : i < cursors.length) {requests : List Request}
    (unmoved : ∀ r ∈ requests, r.moved? ≠ some i) :
    among (after cursors requests) i = among cursors i := by
  induction requests generalizing cursors with
  | nil => rfl
  | cons r rs ih =>
    obtain ⟨first, others⟩ := List.forall_mem_cons.mp unmoved
    exact (ih (answerOnward there r).1 others).trans (answerUnmoved there first)

theorem spentStays {i : Nat} (there : i < cursors.length)
    (spent : (answer cursors (.next i)).1 = .flag none) (requests : List Request) :
    (answer (after cursors requests) (.next i)).1 = .flag none := by
  obtain ⟨_, n, ahead⟩ := afterOnward there requests
  have nothing : (among cursors i).next.1 = none := Answer.flag.inj spent
  rw [(nextPending _).1, List.head?_eq_none_iff] at nothing
  rw [nothing, List.drop_nil] at ahead
  exact congrArg Answer.flag ((nextPending _).1.trans (congrArg List.head? ahead))

/- Cursors that are copies of one another answer as places in the list of all flags. A cursor stays
as it is while others are moved, and once it has nothing to give it never will again. -/
theorem answersLazily (raw : String) (requests : List Request) :
    answers [ofText raw] requests = Place.answers (Directive.flags raw) [0] requests ∧
      ∀ i < (after [ofText raw] requests).length, ∀ later,
        ((∀ r ∈ later, r.moved? ≠ some i) →
          among (after [ofText raw] (requests ++ later)) i =
            among (after [ofText raw] requests) i) ∧
        ((answer (after [ofText raw] requests) (.next i)).1 = .flag none →
          (answer (after [ofText raw] (requests ++ later)) (.next i)).1 = .flag none) := by
  have together : ∀ cursors later, after cursors (requests ++ later) =
      after (after cursors requests) later := by
    intro cursors later
    induction requests generalizing cursors with
    | nil => rfl
    | cons r rs ih => exact ih _
  have start : Placed (Directive.flags raw) [ofText raw] [0] := rfl
  refine ⟨answersPlaced start requests, fun i there later => ?_⟩
  rw [together]
  exact ⟨fun unmoved => afterUnmoved there unmoved, fun spent => spentStays there spent later⟩

theorem copyLags :
    let raw := "cargo:rustc-cfg=a\nnoise\ncargo:rustc-cfg=a\nnoise"
    let requests : List Request := [.next 0, .copy 0, .rest 0]
    answers [ofText raw] requests = [.flag (some ⟨"a"⟩), .number 1, .flags [⟨"a"⟩]] ∧
      1 < (after [ofText raw] requests).length ∧
      among (after [ofText raw] (requests ++ [.next 0])) 1 =
        among (after [ofText raw] requests) 1 ∧
      (answer (after [ofText raw] (requests ++ [.skip 1 0, .copy 0])) (.next 0)).1 = .flag none := by
  intro raw requests
  obtain ⟨same, later⟩ := answersLazily raw requests
  have two : (after [ofText raw] requests).length = 2 := rfl
  refine ⟨same.trans (by decide +kernel), by rw [two]; decide, ?_, ?_⟩
  · exact (later 1 (by rw [two]; decide) [.next 0]).1 (by decide)
  · exact (later 0 (by rw [two]; decide) [.skip 1 0, .copy 0]).2 (by decide +kernel)

end Cursor
end BuildProbe
