import BuildProbe.Proofs.Text.Encoding
import Mathlib

/-!
Malformed bytes. What is read of bytes can be told without a decoder. Where the bytes of a character
come first, that character is read. Where those of no character do, as many bytes as begin some
character, or else a single byte, are read as one replacement character. There is exactly one such
reading, and it is what a decoder reads.
-/
namespace BuildProbe.Text

def Starts (part : Bytes) : Prop := ∃ c : Char, part <+: String.utf8EncodeChar c

structure Malformed (part rest : Bytes) : Prop where
  filled : part ≠ []
  unread : ∀ c, ¬String.utf8EncodeChar c <+: part ++ rest
  begins : Starts part ∨ part.length = 1
  longest : ∀ more, more <+: part ++ rest → Starts more → more.length ≤ part.length

inductive Lossy : Bytes → List Char → Prop where
  | done : Lossy [] []
  | character (c : Char) {rest cs} (later : Lossy rest cs) :
      Lossy (String.utf8EncodeChar c ++ rest) (c :: cs)
  | malformed {part rest cs} (breaks : Malformed part rest) (later : Lossy rest cs) :
      Lossy (part ++ rest) (replacement :: cs)

theorem startsShorter {part more : Bytes} (starts : Starts (part ++ more)) : Starts part := by
  obtain ⟨c, whole⟩ := starts
  exact ⟨c, (List.prefix_append part more).trans whole⟩

theorem beginHeads {b : UInt8} {s : Begun} (begins : begin? b = some s) :
    (∃ n, 2 ≤ n ∧ n < 32 ∧ b = UInt8.ofNat (n + 192)) ∨
      (∃ n < 16, b = UInt8.ofNat (n + 224)) ∨ ∃ n < 5, b = UInt8.ofNat (n + 240) := by
  have all : ∀ n < 256, (begin? (UInt8.ofNat n)).isSome = true → 194 ≤ n ∧ n < 245 := by
    decide +kernel
  obtain ⟨above, below⟩ := all b.toNat b.toNat_lt (by rw [UInt8.ofNat_toNat, begins]; rfl)
  have same := UInt8.ofNat_toNat (x := b)
  by_cases two : b.toNat < 224
  · exact .inl ⟨b.toNat - 192, by omega, by omega, by rw [Nat.sub_add_cancel (by omega), same]⟩
  · by_cases three : b.toNat < 240
    · exact .inr (.inl ⟨b.toNat - 224, by omega, by rw [Nat.sub_add_cancel (by omega), same]⟩)
    · exact .inr (.inr ⟨b.toNat - 240, by omega, by rw [Nat.sub_add_cancel (by omega), same]⟩)

/- Whatever value a sequence holds, its character's bytes are those that were read and then those
with the six bits that are not read yet. -/
structure Reached (part : Bytes) (s : Begun) : Prop where
  sound : s.Sound
  encodes : ∀ v, s.Holds v →
    String.utf8EncodeChar (Char.ofNat v) = part ++ tails v (s.after + 1)

theorem beginReached {b : UInt8} {s : Begun} (begins : begin? b = some s) : Reached [b] s := by
  refine ⟨Begun.beginSound begins, fun v holds => ?_⟩
  rcases beginHeads begins with ⟨n, wide, small, rfl⟩ | ⟨n, small, rfl⟩ | ⟨n, small, rfl⟩
  · cases (twoBegins n small wide).symm.trans begins
    obtain rfl := twoHolds.mp holds
    exact encodeTwo (by omega) (by omega)
  · cases (threeBegins n small).symm.trans begins
    obtain ⟨rfl, wide, valid⟩ := threeHolds.mp holds
    exact encodeThree (by omega) (by omega) (by omega)
  · cases (fourBegins n small).symm.trans begins
    obtain ⟨rfl, wide, valid⟩ := fourHolds.mp holds
    exact encodeFour (by omega) (by omega)

section

variable {part : Bytes} {s : Begun} {b : UInt8} {v : Nat}

theorem reachedNext (reached : Reached part s) (inside : s.low ≤ b ∧ b ≤ s.high)
    (next : v / 64 ^ s.after = s.bits * 64 + (b.toNat - 0x80)) :
    String.utf8EncodeChar (Char.ofNat v) = part ++ b :: tails v s.after := by
  have low := UInt8.le_iff_toNat_le.mp inside.1
  have high := UInt8.le_iff_toNat_le.mp inside.2
  have above := reached.sound.low
  have below := reached.sound.high.2
  have holds : s.Holds v := by
    rw [Begun.holdsNext, next]
    omega
  have byte : UInt8.ofNat (v / 64 ^ s.after % 64 + 128) = b := by
    rw [next, show (s.bits * 64 + (b.toNat - 0x80)) % 64 + 128 = b.toNat by omega, UInt8.ofNat_toNat]
  rw [reached.encodes v holds, tails, byte]

theorem reachedMore (reached : Reached part s) (inside : s.low ≤ b ∧ b ≤ s.high) {n : Nat}
    (more : s.after = n + 1) :
    Reached (part ++ [b]) ⟨s.bits * 64 + (b.toNat - 0x80), 0x80, 0xBF, n⟩ := by
  refine ⟨Begun.moreSound reached.sound more (UInt8.le_iff_toNat_le.mp inside.1)
    (UInt8.le_iff_toNat_le.mp inside.2), fun v holds => ?_⟩
  have next := (Begun.moreHolds _).mp holds
  rw [← more] at next
  rw [reachedNext reached inside next, more, List.append_assoc]
  rfl

theorem reachedStarts (reached : Reached part s) (inside : s.low ≤ b ∧ b ≤ s.high) :
    Starts (part ++ [b]) := by
  have power : 0 < 64 ^ s.after := Nat.pow_pos (by decide)
  have next : (s.bits * 64 + (b.toNat - 0x80)) * 64 ^ s.after / 64 ^ s.after =
      s.bits * 64 + (b.toNat - 0x80) := Nat.mul_div_cancel _ power
  refine ⟨Char.ofNat ((s.bits * 64 + (b.toNat - 0x80)) * 64 ^ s.after), ?_⟩
  rw [reachedNext reached inside next]
  exact ⟨_, List.append_assoc ..⟩

theorem reachedPart (reached : Reached part s) (holds : s.Holds v) {more tail : Bytes}
    (split : tails v (s.after + 1) = more ++ tail) (left : tail ≠ []) :
    ∃ s', Reached (part ++ more) s' ∧
      ∀ rest, Decoder.ahead (some s) (more ++ rest) = Decoder.ahead (some s') rest := by
  induction more generalizing part s with
  | nil => exact ⟨s, by rwa [List.append_nil], fun _ => rfl⟩
  | cons b more ih =>
    obtain ⟨inside, bits⟩ := Begun.tailFits reached.sound holds
    rw [tails, List.cons_append] at split
    obtain ⟨byte, later⟩ := List.cons.inj split
    rw [byte] at inside bits
    cases after : s.after with
    | zero =>
      rw [after, tails] at later
      exact absurd (List.append_eq_nil_iff.mp later.symm).2 left
    | succ n =>
      rw [after] at later bits
      obtain ⟨s', reached', reads⟩ :=
        ih (reachedMore reached inside after) ((Begun.moreHolds _).mpr bits.symm) later
      refine ⟨s', ?_, fun rest => ?_⟩
      · rw [List.append_assoc] at reached'
        exact reached'
      · rw [← reads rest]
        exact Decoder.aheadMore inside after

end

theorem aheadCut {s : Begun} {b : UInt8} (outside : ¬(s.low ≤ b ∧ b ≤ s.high)) (rest : Bytes) :
    Decoder.ahead (some s) (b :: rest) = replacement :: Decoder.ahead none (b :: rest) := by
  have fed : Decoder.feed ⟨[], some s⟩ b = Decoder.feed ⟨[replacement], none⟩ b := by
    simp only [Decoder.feed, if_neg outside]
  rw [Decoder.aheadCons, fed, Decoder.feedOnto, Decoder.aheadCons]
  simp

theorem aheadStray {b : UInt8} (wide : ¬b < 0x80) (stray : begin? b = none) (rest : Bytes) :
    Decoder.ahead none (b :: rest) = replacement :: Decoder.ahead none rest := by
  rw [Decoder.aheadCons, Decoder.feed, Decoder.openWith, if_neg wide, stray]
  rfl

section

variable {part rest : Bytes}

theorem startedAhead (breaks : Malformed part rest) (starts : Starts part) :
    Decoder.ahead none (part ++ rest) = replacement :: Decoder.ahead none rest := by
  obtain ⟨b, more, rfl⟩ := List.exists_cons_of_ne_nil breaks.filled
  obtain ⟨c, tail, whole⟩ := starts
  have left : tail ≠ [] := by
    rintro rfl
    rw [List.append_nil] at whole
    exact breaks.unread c (whole ▸ List.prefix_append ..)
  have wide : 0x80 ≤ c.toNat := by
    refine Nat.le_of_not_lt fun plain => ?_
    rw [encodePlain plain, List.cons_append] at whole
    exact left (List.append_eq_nil_iff.mp (List.cons.inj whole).2).2
  obtain ⟨first, s, begins, holds, encoded⟩ := encodeBegins wide
  rw [encoded, List.cons_append] at whole
  obtain ⟨rfl, split⟩ := List.cons.inj whole
  obtain ⟨s', reached, reads⟩ := reachedPart (beginReached begins) holds split.symm left
  rw [List.cons_append, Decoder.aheadBegun begins, reads]
  cases rest with
  | nil => rfl
  | cons y rest =>
    -- If the next byte went on with the sequence, the part would not be the longest.
    refine aheadCut (fun inside => ?_) rest
    have longer := breaks.longest _ ⟨rest, List.append_assoc ..⟩ (reachedStarts reached inside)
    simp only [List.length_append, List.length_cons, List.length_nil] at longer
    omega

theorem singleAhead {b : UInt8} (breaks : Malformed [b] rest) (stray : ¬Starts [b]) :
    Decoder.ahead none (b :: rest) = replacement :: Decoder.ahead none rest := by
  have wide : ¬b < 0x80 := by
    intro plain
    have small : b.toNat < 0x80 := UInt8.lt_iff_toNat_lt.mp plain
    have value : (Char.ofNat b.toNat).toNat = b.toNat := charValue (.inl (by omega))
    have own := encodePlain (c := Char.ofNat b.toNat) (value.symm ▸ small)
    rw [Decoder.byteOwn plain] at own
    exact breaks.unread (Char.ofNat b.toNat) (own ▸ List.prefix_append [b] rest)
  refine aheadStray wide ?_ rest
  cases begins : begin? b with
  | none => rfl
  | some s =>
    have reached := beginReached begins
    have inside : s.low ≤ s.low ∧ s.low ≤ s.high :=
      ⟨UInt8.le_refl _, UInt8.le_iff_toNat_le.mpr reached.sound.high.1⟩
    exact absurd (startsShorter (reachedStarts reached inside)) stray

theorem malformedAhead (breaks : Malformed part rest) :
    Decoder.ahead none (part ++ rest) = replacement :: Decoder.ahead none rest := by
  by_cases starts : Starts part
  · exact startedAhead breaks starts
  · obtain ⟨b, rfl⟩ := List.length_eq_one_iff.mp (breaks.begins.resolve_left starts)
    exact singleAhead breaks starts

end

theorem charFilled (c : Char) : String.utf8EncodeChar c ≠ [] := by
  simp

theorem malformedPart {bytes : Bytes} (filled : bytes ≠ [])
    (unread : ∀ c, ¬String.utf8EncodeChar c <+: bytes) :
    ∃ part rest, bytes = part ++ rest ∧ Malformed part rest := by
  classical
  have some := List.length_pos_iff.mpr filled
  let begun := Nat.findGreatest (fun n => Starts (bytes.take n)) bytes.length
  have short : begun ≤ bytes.length := Nat.findGreatest_le _
  have size : (bytes.take (max begun 1)).length = max begun 1 := by
    rw [List.length_take]
    omega
  have whole := List.take_append_drop (max begun 1) bytes
  refine ⟨_, _, whole.symm, ?_, whole.symm ▸ unread, ?_, ?_⟩
  · exact List.ne_nil_of_length_pos (by omega)
  · by_cases none : begun = 0
    · exact .inr (by rw [size, none]; rfl)
    · left
      rw [Nat.max_eq_left (Nat.pos_of_ne_zero none)]
      exact Nat.findGreatest_of_ne_zero (P := fun n => Starts (bytes.take n)) rfl none
  · intro more first starts
    rw [whole] at first
    rw [List.prefix_iff_eq_take.mp first] at starts
    have reached : more.length ≤ begun := Nat.le_findGreatest first.length_le starts
    omega

theorem lossyAhead {bytes : Bytes} {chars : List Char} (reading : Lossy bytes chars) :
    chars = Decoder.ahead none bytes := by
  induction reading with
  | done => rfl
  | character c later ih => rw [Decoder.aheadChar, ← ih]
  | malformed breaks later ih => rw [malformedAhead breaks, ← ih]

theorem aheadLossy (bytes : Bytes) : Lossy bytes (Decoder.ahead none bytes) := by
  by_cases filled : bytes = []
  · subst filled
    exact .done
  · by_cases read : ∃ c, String.utf8EncodeChar c <+: bytes
    · obtain ⟨c, rest, whole⟩ := read
      rw [← whole, Decoder.aheadChar]
      exact .character c (aheadLossy rest)
    · obtain ⟨part, rest, whole, breaks⟩ := malformedPart filled (not_exists.mp read)
      rw [whole, malformedAhead breaks]
      exact .malformed breaks (aheadLossy rest)
termination_by bytes.length
decreasing_by
  · have := List.length_pos_iff.mpr (charFilled c)
    rw [← whole, List.length_append]
    omega
  · have := List.length_pos_iff.mpr breaks.filled
    rw [whole, List.length_append]
    omega

theorem decodeLossy (bytes : Bytes) (chars : List Char) :
    Lossy bytes chars ↔ chars = (decode bytes).toList := by
  rw [decodeAhead]
  refine ⟨lossyAhead, ?_⟩
  rintro rfl
  exact aheadLossy bytes

end BuildProbe.Text
