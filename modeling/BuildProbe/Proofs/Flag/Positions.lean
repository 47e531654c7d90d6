import BuildProbe.Proofs.Flag.Sayings

/-!
Where the directives stand in a text. A line starts at the front of the text and behind each line
feed, and nowhere else. Each place at which a mark starts a line gives one value, the text behind
the mark up to the next line feed, and there are no other values.
-/
namespace BuildProbe

namespace Text

def StartsLine (cs : List Char) (i : Nat) : Prop := i = 0 ∨ cs[i - 1]? = some '\n'
instance (cs : List Char) (i : Nat) : Decidable (StartsLine cs i) := by
  unfold StartsLine; infer_instance

/- The places at which a mark starts a line, in order. -/
def marked (mark cs : List Char) : List Nat :=
  (List.range cs.length).filter fun i => StartsLine cs i ∧ mark <+: cs.drop i

/- What stands before the next line feed, without a carriage return directly before it. -/
def upToFeed (cs : List Char) : List Char :=
  if '\n' ∈ cs then chomp (cs.takeWhile (· ≠ '\n')) else cs

variable {mark l cs : List Char}

theorem markedIncreasing (mark cs : List Char) : (marked mark cs).Pairwise (· < ·) :=
  List.Pairwise.filter _ List.pairwise_lt_range

theorem markedThere (filled : mark ≠ []) {i : Nat} :
    i ∈ marked mark cs ↔ StartsLine cs i ∧ mark <+: cs.drop i := by
  rw [marked, List.mem_filter, List.mem_range]
  refine ⟨fun ⟨_, there⟩ => of_decide_eq_true there, fun there => ⟨?_, decide_eq_true there⟩⟩
  have long := there.2.length_le
  have some := List.length_pos_iff.mpr filled
  rw [List.length_drop] at long
  omega

theorem startsFront (plain : '\n' ∉ l) (rest : List Char) {i : Nat} (inside : i ≤ l.length) :
    StartsLine (l ++ rest) i ↔ i = 0 := by
  refine ⟨fun starts => ?_, .inl⟩
  cases starts with
  | inl front => exact front
  | inr feed =>
    by_cases front : i = 0
    · exact front
    · rw [List.getElem?_append_left (by omega)] at feed
      exact absurd (List.mem_of_getElem? feed) plain

theorem startsBehind (l rest : List Char) (i : Nat) :
    StartsLine (l ++ '\n' :: rest) (l.length + 1 + i) ↔ StartsLine rest i := by
  unfold StartsLine
  rw [List.getElem?_append_right (by omega)]
  cases i with
  | zero => simp
  | succ i =>
    rw [show l.length + 1 + (i + 1) - 1 - l.length = i + 1 by omega, List.getElem?_cons_succ]
    simp

theorem prefixPlain (unfed : '\n' ∉ mark) (rest : List Char) :
    mark <+: l ++ '\n' :: rest ↔ mark <+: l := by
  refine ⟨fun ⟨more, same⟩ => ?_, fun short => short.trans (List.prefix_append ..)⟩
  rcases List.append_eq_append_iff.mp same with ⟨more, rfl, _⟩ | ⟨more, inside, split⟩
  · exact List.prefix_append ..
  · cases more with
    | nil => exact ⟨[], by simpa using inside⟩
    | cons c more =>
      obtain ⟨rfl, _⟩ := List.cons.inj split
      exact absurd (inside ▸ List.mem_append_right _ List.mem_cons_self) unfed

theorem filterFront (n : Nat) {front : Nat → Prop} [DecidablePred front]
    (only : ∀ i ≤ n, front i → i = 0) :
    (List.range (n + 1)).filter (front ·) = if front 0 then [0] else [] := by
  have none : ((List.range n).map Nat.succ).filter (front ·) = [] := by
    refine List.filter_eq_nil_iff.mpr fun i member there => ?_
    obtain ⟨j, below, rfl⟩ := List.mem_map.mp member
    have below := List.mem_range.mp below
    exact absurd (only _ below (of_decide_eq_true there)) (Nat.succ_ne_zero j)
  rw [List.range_succ_eq_map, List.filter_cons, none]
  simp

theorem markedPlain (filled : mark ≠ []) (plain : '\n' ∉ l) :
    marked mark l = if mark <+: l then [0] else [] := by
  cases size : l.length with
  | zero =>
    cases List.length_eq_zero_iff.mp size
    rw [if_neg fun short => filled (List.prefix_nil.mp short)]
    rfl
  | succ n =>
    rw [marked, size, filterFront n fun i inside there =>
      (startsFront plain [] (by omega)).mp (by simpa using there.1)]
    simp [StartsLine]

theorem markedCons (unfed : '\n' ∉ mark) (plain : '\n' ∉ l) (rest : List Char) :
    marked mark (l ++ '\n' :: rest) =
      (if mark <+: l then [0] else []) ++ (marked mark rest).map (l.length + 1 + ·) := by
  have size : (l ++ '\n' :: rest).length = (l.length + 1) + rest.length := by
    simp only [List.length_append, List.length_cons]
    omega
  rw [marked, size, List.range_add, List.filter_append, filterFront l.length fun i inside there =>
    (startsFront plain _ inside).mp there.1, List.filter_map, marked]
  congr 1
  · simp [StartsLine, prefixPlain unfed]
  · refine congrArg (List.map _) (List.filter_congr fun i _ => ?_)
    have behind : (l ++ '\n' :: rest).drop (l.length + 1 + i) = rest.drop i := by
      rw [Nat.add_assoc, List.drop_append]
      simp [Nat.add_comm 1]
    simp only [Function.comp, startsBehind, behind]

theorem chompPrefix (l : List Char) : chomp l <+: l := by
  unfold chomp
  split
  · exact List.dropLast_prefix l
  · exact List.prefix_rfl

theorem chompBehind (unreturned : '\r' ∉ mark) (v : List Char) :
    chomp (mark ++ v) = mark ++ chomp v := by
  rcases List.eq_nil_or_concat v with rfl | ⟨front, last, rfl⟩
  · rw [List.append_nil, chompOther fun ends => unreturned (List.mem_of_getLast? ends)]
    exact (List.append_nil mark).symm
  · rw [List.concat_eq_append, ← List.append_assoc, chomp, chomp, List.getLast?_concat,
      List.getLast?_concat, List.dropLast_concat, List.dropLast_concat]
    split
    · rfl
    · exact List.append_assoc ..

theorem afterChomped (unreturned : '\r' ∉ mark) (l : List Char) :
    after? mark (chomp l) = if mark <+: l then some (chomp (l.drop mark.length)) else none := by
  split
  · rename_i starts
    obtain ⟨v, rfl⟩ := starts
    rw [List.drop_left, afterSome, chompBehind unreturned]
  · rename_i apart
    exact Directive.afterNone.mpr fun starts => apart (starts.trans (chompPrefix l))

theorem afterWhole (mark l : List Char) :
    after? mark l = if mark <+: l then some (l.drop mark.length) else none := by
  split
  · rename_i starts
    obtain ⟨v, rfl⟩ := starts
    rw [List.drop_left, afterSome]
  · rename_i apart
    exact Directive.afterNone.mpr apart

theorem upToFeedPlain (plain : '\n' ∉ l) : upToFeed l = l := if_neg plain

theorem upToFeedCons (plain : '\n' ∉ l) (rest : List Char) :
    upToFeed (l ++ '\n' :: rest) = chomp l := by
  have past : ∀ c ∈ l, decide (c ≠ '\n') = true := fun c member =>
    decide_eq_true fun feed => plain (feed ▸ member)
  rw [upToFeed, if_pos (List.mem_append_right _ List.mem_cons_self),
    List.takeWhile_append_of_pos past]
  simp

theorem linesMarked (filled : mark ≠ []) (unfed : '\n' ∉ mark) (unreturned : '\r' ∉ mark)
    (cs : List Char) : (lines cs).filterMap (after? mark) =
      (marked mark cs).map fun i => upToFeed (cs.drop (i + mark.length)) := by
  induction cs using rowInduction with
  | last l plain =>
    rw [linesPlain plain, markedPlain filled plain, unterminated]
    by_cases starts : mark <+: l
    · have some : l ≠ [] := fun empty => filled (List.prefix_nil.mp (empty ▸ starts))
      have behind : '\n' ∉ l.drop mark.length := fun member => plain (List.mem_of_mem_drop member)
      rw [if_neg some, if_pos starts, List.filterMap_cons, afterWhole, if_pos starts,
        List.map_singleton, Nat.zero_add, upToFeedPlain behind]
      rfl
    · have silent : after? mark l = none := by rw [afterWhole, if_neg starts]
      rw [if_neg starts]
      split
      · rfl
      · rw [List.filterMap_cons, silent]
        rfl
  | row l rest plain ih =>
    have later : ∀ i, (l ++ '\n' :: rest).drop (l.length + 1 + i + mark.length) =
        rest.drop (i + mark.length) := by
      intro i
      rw [Nat.add_assoc, Nat.add_assoc, List.drop_append]
      simp [Nat.add_comm 1]
    rw [linesCons plain, markedCons unfed plain, List.filterMap_cons, afterChomped unreturned, ih,
      List.map_append, List.map_map]
    have others : (marked mark rest).map ((fun i => upToFeed ((l ++ '\n' :: rest).drop
        (i + mark.length))) ∘ (l.length + 1 + ·)) =
        (marked mark rest).map fun i => upToFeed (rest.drop (i + mark.length)) :=
      List.map_congr_left fun i _ => congrArg upToFeed (later i)
    rw [others]
    by_cases starts : mark <+: l
    · have behind : '\n' ∉ l.drop mark.length := fun member => plain (List.mem_of_mem_drop member)
      rw [if_pos starts, if_pos starts, List.map_singleton, Nat.zero_add,
        List.drop_append_of_le_length starts.length_le, upToFeedCons behind]
      rfl
    · rw [if_neg starts, if_neg starts]
      rfl

theorem readMarked {α : Type} (filled : mark ≠ []) (unfed : '\n' ∉ mark) (unreturned : '\r' ∉ mark)
    (read : List Char → α) (cs : List Char) :
    (lines cs).filterMap (fun line => (after? mark line).map read) =
      (marked mark cs).map fun i => read (upToFeed (cs.drop (i + mark.length))) := by
  rw [← List.map_filterMap, linesMarked filled unfed unreturned, List.map_map]
  rfl

end Text

namespace Directive

open Text (StartsLine marked upToFeed)

def askingAt (raw : String) : List Nat := marked Flag.directiveMark.toList raw.toList

def warningAt (raw : String) : List Nat := marked warningMark.toList raw.toList

def textAt (raw : String) (i : Nat) : String := String.ofList (upToFeed (raw.toList.drop i))

theorem warningsPlaced (raw : String) :
    warnings raw = (warningAt raw).map fun i => textAt raw (i + 14) :=
  @Text.readMarked warningMark.toList String (by decide +kernel) (by decide +kernel)
    (by decide +kernel) String.ofList raw.toList

theorem placesRead (raw : String) :
    flags raw = (askingAt raw).map (fun i => ⟨textAt raw (i + 16)⟩) ∧
    warnings raw = (warningAt raw).map (fun i => textAt raw (i + 14)) ∧
    (askingAt raw).Pairwise (· < ·) ∧ (warningAt raw).Pairwise (· < ·) ∧
    (∀ i, i ∈ askingAt raw ↔
      StartsLine raw.toList i ∧ Flag.directiveMark.toList <+: raw.toList.drop i) ∧
    (∀ i, i ∈ warningAt raw ↔ StartsLine raw.toList i ∧ warningMark.toList <+: raw.toList.drop i) ∧
    ∀ i, ¬(i ∈ askingAt raw ∧ i ∈ warningAt raw) := by
  have asks : ∀ i, i ∈ askingAt raw ↔
      StartsLine raw.toList i ∧ Flag.directiveMark.toList <+: raw.toList.drop i :=
    fun i => Text.markedThere (by decide +kernel)
  have warns : ∀ i, i ∈ warningAt raw ↔
      StartsLine raw.toList i ∧ warningMark.toList <+: raw.toList.drop i :=
    fun i => Text.markedThere (by decide +kernel)
  refine ⟨?_, warningsPlaced raw, Text.markedIncreasing _ _, Text.markedIncreasing _ _, asks, warns,
    ?_⟩
  · exact @Text.readMarked Flag.directiveMark.toList Flag (by decide +kernel) (by decide +kernel)
      (by decide +kernel) (⟨String.ofList ·⟩) raw.toList
  · rintro i ⟨asking, warning⟩
    obtain ⟨more, same⟩ := ((asks i).mp asking).2
    have apart := @marksApart warningMark.toList Flag.directiveMark.toList
      (by decide +kernel) (by decide +kernel) (by decide +kernel) more
    exact apart (same ▸ ((warns i).mp warning).2)

/- Neither a carriage return nor another separator starts a line, and only one is dropped. -/
example : flags "\rcargo:rustc-cfg=a\u2028cargo:rustc-cfg=b\ncargo:rustc-cfg=c\r\r\n" =
    [⟨"c\r"⟩] := by
  decide +kernel

end Directive
end BuildProbe
