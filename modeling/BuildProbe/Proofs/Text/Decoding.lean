import BuildProbe.Text.Bytes
import Mathlib

/-!
What a decoder makes of bytes below `0x80`. A begun sequence can only become a character that is not
among the first 128, so whatever malformed bytes there are, each of the first 128 characters in what
is read stands for a byte of its own, and each such byte stands for its character. The bytes before
it and those behind it are read as if they were all there is.
-/
namespace BuildProbe.Text

theorem charValue {n : Nat} (valid : n.isValidChar) : (Char.ofNat n).toNat = n := by
  rw [Char.ofNat, dif_pos valid]
  rfl

namespace Begun

def least (s : Begun) : Nat := (s.bits * 64 + (s.low.toNat - 0x80)) * 64 ^ s.after

def beyond (s : Begun) : Nat := (s.bits * 64 + (s.high.toNat - 0x80) + 1) * 64 ^ s.after

/- Every value that the sequence can still have is a character's, and not among the first 128. -/
structure Sound (s : Begun) : Prop where
  low : 0x80 ≤ s.low.toNat
  high : s.low.toNat ≤ s.high.toNat ∧ s.high.toNat ≤ 0xBF
  wide : 0x80 ≤ s.least
  scalar : s.beyond ≤ 0xD800 ∨ 0xE000 ≤ s.least ∧ s.beyond ≤ 0x110000

instance (s : Begun) : Decidable s.Sound :=
  decidable_of_iff (0x80 ≤ s.low.toNat ∧ (s.low.toNat ≤ s.high.toNat ∧ s.high.toNat ≤ 0xBF) ∧
      0x80 ≤ s.least ∧
      (s.beyond ≤ 0xD800 ∨ 0xE000 ≤ s.least ∧ s.beyond ≤ 0x110000))
    ⟨fun ⟨low, high, wide, scalar⟩ => ⟨low, high, wide, scalar⟩,
      fun sound => ⟨sound.low, sound.high, sound.wide, sound.scalar⟩⟩

variable {s : Begun} {b : UInt8}

theorem beginSound (begun : begin? b = some s) : s.Sound := by
  have all : ∀ n < 256, ∀ s ∈ begin? (UInt8.ofNat n), s.Sound := by decide +kernel
  exact all b.toNat b.toNat_lt s (by rw [UInt8.ofNat_toNat]; exact begun)

theorem moreSound (sound : s.Sound) {n : Nat} (more : s.after = n + 1)
    (low : s.low.toNat ≤ b.toNat) (high : b.toNat ≤ s.high.toNat) :
    Sound ⟨s.bits * 64 + (b.toNat - 0x80), 0x80, 0xBF, n⟩ := by
  obtain ⟨above, below, wide, scalar⟩ := sound
  have power : 64 ^ (n + 1) = 64 * 64 ^ n := by rw [Nat.pow_succ, Nat.mul_comm]
  have up : s.least ≤ Begun.least ⟨s.bits * 64 + (b.toNat - 0x80), 0x80, 0xBF, n⟩ := by
    simp only [least, more, power, ← Nat.mul_assoc]
    refine Nat.mul_le_mul_right _ ?_
    simp only [UInt8.toNat_ofNat]
    omega
  have down : Begun.beyond ⟨s.bits * 64 + (b.toNat - 0x80), 0x80, 0xBF, n⟩ ≤ s.beyond := by
    simp only [beyond, more, power, ← Nat.mul_assoc]
    refine Nat.mul_le_mul_right _ ?_
    simp only [UInt8.toNat_ofNat]
    omega
  have bounds : (0x80 : UInt8) ≤ 0xBF := by decide
  exact ⟨Nat.le_refl _, ⟨UInt8.le_iff_toNat_le.mp bounds, Nat.le_refl _⟩, by omega, by omega⟩

theorem lastSound (sound : s.Sound) (last : s.after = 0) (low : s.low.toNat ≤ b.toNat)
    (high : b.toNat ≤ s.high.toNat) :
    0x80 ≤ (Char.ofNat (s.bits * 64 + (b.toNat - 0x80))).toNat := by
  obtain ⟨above, below, wide, scalar⟩ := sound
  simp only [least, beyond, last, Nat.pow_zero, Nat.mul_one] at wide scalar
  have valid : (s.bits * 64 + (b.toNat - 0x80)).isValidChar := by
    unfold Nat.isValidChar
    omega
  rw [charValue valid]
  omega

end Begun

namespace Decoder

def ahead (begun : Option Begun) (bytes : Bytes) : List Char :=
  (bytes.foldl feed ⟨[], begun⟩).finish

def given : Option Begun → List Char
  | none => []
  | some _ => [replacement]

def Sound (begun : Option Begun) : Prop := ∀ s ∈ begun, s.Sound

variable {begun : Option Begun} {b : UInt8} {bytes : Bytes}

theorem noneSound : Sound none := nofun

theorem aheadNil (begun : Option Begun) : ahead begun [] = given begun := by
  cases begun <;> rfl

theorem openOnto (read before : List Char) (b : UInt8) :
    openWith (read ++ before) b = ⟨(openWith read b).read ++ before, (openWith read b).begun⟩ := by
  unfold openWith
  split
  · rfl
  · split <;> rfl

theorem feedOnto (before : List Char) (begun : Option Begun) (b : UInt8) :
    feed ⟨before, begun⟩ b =
      ⟨(feed ⟨[], begun⟩ b).read ++ before, (feed ⟨[], begun⟩ b).begun⟩ := by
  cases begun with
  | none => exact openOnto [] before b
  | some s =>
    simp only [feed]
    split
    · split <;> rfl
    · exact openOnto [replacement] before b

theorem finishOnto (before : List Char) (begun : Option Begun) (bytes : Bytes) :
    (bytes.foldl feed ⟨before, begun⟩).finish = before.reverse ++ ahead begun bytes := by
  induction bytes generalizing before begun with
  | nil => cases begun <;> simp [ahead, finish]
  | cons b bytes ih =>
    have first : ahead begun (b :: bytes) = (bytes.foldl feed
        ⟨(feed ⟨[], begun⟩ b).read, (feed ⟨[], begun⟩ b).begun⟩).finish := rfl
    rw [List.foldl_cons, feedOnto, ih, first, ih, List.reverse_append, List.append_assoc]

theorem aheadCons (begun : Option Begun) (b : UInt8) (bytes : Bytes) :
    ahead begun (b :: bytes) = (feed ⟨[], begun⟩ b).read.reverse ++
      ahead (feed ⟨[], begun⟩ b).begun bytes :=
  finishOnto _ _ bytes

theorem feedPlain (sound : Sound begun) (plain : b < 0x80) :
    feed ⟨[], begun⟩ b = ⟨Char.ofNat b.toNat :: given begun, none⟩ := by
  cases begun with
  | none => rw [feed, openWith, if_pos plain]; rfl
  | some s =>
    have above := (sound s rfl).low
    have outside : ¬(s.low ≤ b ∧ b ≤ s.high) := by
      rintro ⟨low, _⟩
      have plain : b.toNat < 0x80 := UInt8.lt_iff_toNat_lt.mp plain
      have low := UInt8.le_iff_toNat_le.mp low
      omega
    simp only [feed, if_neg outside, openWith, if_pos plain]
    rfl

/- Another byte begins or continues a sequence or is read as something. It is read as none of the
first 128 characters. -/
structure Strange (d : Decoder) : Prop where
  wide : ∀ c ∈ d.read, 0x80 ≤ c.toNat
  sound : Sound d.begun
  heard : d.read = [] → d.begun ≠ none

theorem openStrange (before : List Char) (wide : ∀ c ∈ before, 0x80 ≤ c.toNat)
    (other : ¬ b < 0x80) : (openWith before b).Strange := by
  rw [openWith, if_neg other]
  split
  · rename_i s begins
    refine ⟨wide, ?_, fun _ => nofun⟩
    rintro _ ⟨⟩
    exact Begun.beginSound begins
  · refine ⟨?_, nofun, nofun⟩
    intro c member
    cases member with
    | head => decide
    | tail _ later => exact wide c later

theorem feedStrange (sound : Sound begun) (other : ¬ b < 0x80) :
    (feed ⟨[], begun⟩ b).Strange := by
  cases begun with
  | none => exact openStrange [] nofun other
  | some s =>
    have within := sound s rfl
    simp only [feed]
    split
    · rename_i inside
      have low := UInt8.le_iff_toNat_le.mp inside.1
      have high := UInt8.le_iff_toNat_le.mp inside.2
      split
      · rename_i last
        refine ⟨?_, nofun, nofun⟩
        intro c member
        rw [List.mem_singleton.mp member]
        exact Begun.lastSound within last low high
      · rename_i n more
        refine ⟨nofun, ?_, fun _ => nofun⟩
        intro s' same
        rw [← Option.some.inj same]
        exact Begun.moreSound within more low high
    · refine openStrange [replacement] ?_ other
      intro c member
      cases List.mem_singleton.mp member
      decide

theorem feedSound (sound : Sound begun) (b : UInt8) : Sound (feed ⟨[], begun⟩ b).begun := by
  by_cases plain : b < 0x80
  · rw [feedPlain sound plain]
    exact noneSound
  · exact (feedStrange sound plain).sound

theorem aheadPlain (sound : Sound begun) (plain : b < 0x80) (before after : Bytes) :
    ahead begun (before ++ b :: after) =
      ahead begun before ++ Char.ofNat b.toNat :: ahead none after := by
  induction before generalizing begun with
  | nil =>
    rw [List.nil_append, aheadCons, feedPlain sound plain, aheadNil]
    cases begun <;> rfl
  | cons first before ih =>
    rw [List.cons_append, aheadCons, ih (feedSound sound first), aheadCons begun first before,
      List.append_assoc]

theorem aheadEmpty (sound : Sound begun) (empty : ahead begun bytes = []) : bytes = [] := by
  induction bytes generalizing begun with
  | nil => rfl
  | cons b bytes ih =>
    rw [aheadCons, List.append_eq_nil_iff, List.reverse_eq_nil_iff] at empty
    obtain ⟨silent, later⟩ := empty
    cases ih (feedSound sound b) later
    by_cases plain : b < 0x80
    · rw [feedPlain sound plain] at silent
      cases silent
    · have begins := (feedStrange sound plain).heard silent
      rw [aheadNil] at later
      cases waiting : (feed ⟨[], begun⟩ b).begun with
      | none => exact absurd waiting begins
      | some s => rw [waiting] at later; cases later

theorem givenWide (begun : Option Begun) : ∀ c ∈ given begun, 0x80 ≤ c.toNat := by
  intro c member
  cases begun with
  | none => cases member
  | some s =>
    rw [List.mem_singleton.mp member]
    decide

theorem wideFirst {wide rest front back : List Char} {c : Char} (above : ∀ x ∈ wide, 0x80 ≤ x.toNat)
    (plain : c.toNat < 0x80) (same : wide ++ rest = front ++ c :: back) :
    ∃ more, front = wide ++ more ∧ rest = more ++ c :: back := by
  rcases List.append_eq_append_iff.mp same with ⟨more, front, rest⟩ | ⟨more, inside, split⟩
  · exact ⟨more, front, rest⟩
  · cases more with
    | nil => exact ⟨[], by simpa using inside.symm, by simpa using split.symm⟩
    | cons x more =>
      obtain ⟨rfl, _⟩ := List.cons.inj split
      have := above c (inside ▸ List.mem_append_right _ List.mem_cons_self)
      omega

theorem byteOwn {b : UInt8} (plain : b < 0x80) :
    UInt8.ofNat (Char.ofNat b.toNat).toNat = b := by
  have small : b.toNat < 0x80 := UInt8.lt_iff_toNat_lt.mp plain
  have valid : b.toNat.isValidChar := .inl (by omega)
  rw [charValue valid, UInt8.ofNat_toNat]

theorem charOwn {c : Char} (plain : c.toNat < 0x80) :
    UInt8.ofNat c.toNat < 0x80 ∧ Char.ofNat (UInt8.ofNat c.toNat).toNat = c := by
  have value : (UInt8.ofNat c.toNat).toNat = c.toNat :=
    UInt8.toNat_ofNat_of_lt' (show c.toNat < 256 by omega)
  exact ⟨UInt8.lt_iff_toNat_lt.mpr (value.symm ▸ plain), value.symm ▸ Char.ofNat_toNat c⟩

theorem aheadOwn (sound : Sound begun) {front back : List Char} {c : Char} (plain : c.toNat < 0x80)
    (read : ahead begun bytes = front ++ c :: back) :
    ∃ before after, bytes = before ++ UInt8.ofNat c.toNat :: after ∧
      ahead begun before = front ∧ ahead none after = back := by
  induction bytes generalizing begun front with
  | nil =>
    have member : c ∈ given begun := by
      rw [← aheadNil, read]
      exact List.mem_append_right _ List.mem_cons_self
    have := givenWide begun c member
    omega
  | cons b bytes ih =>
    by_cases own : b < 0x80
    · have first := aheadPlain sound own [] bytes
      rw [List.nil_append, aheadNil] at first
      rw [first] at read
      obtain ⟨more, rfl, rest⟩ := wideFirst (givenWide begun) plain read
      cases more with
      | nil =>
        obtain ⟨rfl, rfl⟩ := List.cons.inj rest
        exact ⟨[], bytes, by rw [byteOwn own]; rfl, by rw [aheadNil, List.append_nil], rfl⟩
      | cons x more =>
        obtain ⟨rfl, later⟩ := List.cons.inj rest
        obtain ⟨before, after, rfl, front, back⟩ := ih noneSound later
        refine ⟨b :: before, after, rfl, ?_, back⟩
        have first := aheadPlain sound own [] before
        rw [List.nil_append, aheadNil, front] at first
        exact first
    · have strange := feedStrange sound own
      rw [aheadCons] at read
      have above : ∀ x ∈ (feed ⟨[], begun⟩ b).read.reverse, 0x80 ≤ x.toNat := fun x member =>
        strange.wide x (List.mem_reverse.mp member)
      obtain ⟨more, rfl, rest⟩ := wideFirst above plain read
      obtain ⟨before, after, rfl, front, back⟩ := ih strange.sound rest
      exact ⟨b :: before, after, rfl, by rw [aheadCons, front], back⟩

end Decoder

open Decoder (ahead aheadPlain aheadOwn aheadEmpty noneSound)

theorem decodeAhead (bytes : Bytes) : (decode bytes).toList = ahead none bytes :=
  String.toList_ofList

theorem decodeDivided (before after : Bytes) {b : UInt8} (plain : b < 0x80) :
    (decode (before ++ b :: after)).toList =
      (decode before).toList ++ Char.ofNat b.toNat :: (decode after).toList := by
  simp only [decodeAhead]
  exact aheadPlain noneSound plain before after

theorem decodeOwn {bytes : Bytes} {front back : List Char} {c : Char} (plain : c.toNat < 0x80)
    (read : (decode bytes).toList = front ++ c :: back) :
    ∃ before after, bytes = before ++ UInt8.ofNat c.toNat :: after ∧
      (decode before).toList = front ∧ (decode after).toList = back := by
  rw [decodeAhead] at read
  obtain ⟨before, after, whole, front, back⟩ := aheadOwn noneSound plain read
  exact ⟨before, after, whole, (decodeAhead before).trans front, (decodeAhead after).trans back⟩

theorem decodeEmpty {bytes : Bytes} (empty : (decode bytes).toList = []) : bytes = [] :=
  aheadEmpty noneSound ((decodeAhead bytes).symm.trans empty)

end BuildProbe.Text
