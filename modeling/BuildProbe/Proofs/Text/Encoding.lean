import BuildProbe.Proofs.Text.Decoding
import Mathlib

/-!
Bytes that encode a text are read as that text. The first byte of a character begins a sequence that
can still become the character, and each of the others continues it and leaves it so.
-/
namespace BuildProbe.Text

namespace Decoder

section

variable {s : Begun} {b : UInt8} {rest : Bytes}

theorem aheadMore (inside : s.low ≤ b ∧ b ≤ s.high) {n : Nat} (more : s.after = n + 1) :
    ahead (some s) (b :: rest) =
      ahead (some ⟨s.bits * 64 + (b.toNat - 0x80), 0x80, 0xBF, n⟩) rest := by
  simp only [aheadCons, feed, if_pos inside, more]
  rfl

theorem aheadLast (inside : s.low ≤ b ∧ b ≤ s.high) (last : s.after = 0) :
    ahead (some s) (b :: rest) =
      Char.ofNat (s.bits * 64 + (b.toNat - 0x80)) :: ahead none rest := by
  simp only [aheadCons, feed, if_pos inside, last]
  rfl

theorem aheadBegun (begins : begin? b = some s) :
    ahead none (b :: rest) = ahead (some s) rest := by
  have other : ¬ b < 0x80 := by
    have all : ∀ n < 0x80, begin? (UInt8.ofNat n) = none := by decide +kernel
    intro plain
    have none := all b.toNat (UInt8.lt_iff_toNat_lt.mp plain)
    rw [UInt8.ofNat_toNat, begins] at none
    cases none
  rw [aheadCons, feed, openWith, if_neg other, begins]
  rfl

end

end Decoder

def tails (v : Nat) : (count : Nat) → Bytes
  | 0 => []
  | n + 1 => UInt8.ofNat (v / 64 ^ n % 64 + 128) :: tails v n

namespace Begun

def Holds (s : Begun) (v : Nat) : Prop := s.least ≤ v ∧ v < s.beyond

variable {s : Begun} {v : Nat}

theorem holdsNext : s.Holds v ↔ s.bits * 64 + (s.low.toNat - 0x80) ≤ v / 64 ^ s.after ∧
    v / 64 ^ s.after ≤ s.bits * 64 + (s.high.toNat - 0x80) := by
  have power : 0 < 64 ^ s.after := Nat.pow_pos (by decide)
  rw [Holds, least, beyond, ← Nat.le_div_iff_mul_le power, ← Nat.div_lt_iff_lt_mul power,
    Nat.lt_succ_iff]

theorem tailFits (sound : s.Sound) (holds : s.Holds v) :
    (s.low ≤ UInt8.ofNat (v / 64 ^ s.after % 64 + 128) ∧
      UInt8.ofNat (v / 64 ^ s.after % 64 + 128) ≤ s.high) ∧
    s.bits * 64 + ((UInt8.ofNat (v / 64 ^ s.after % 64 + 128)).toNat - 0x80) = v / 64 ^ s.after := by
  obtain ⟨low, high⟩ := holdsNext.mp holds
  have value : (UInt8.ofNat (v / 64 ^ s.after % 64 + 128)).toNat = v / 64 ^ s.after % 64 + 128 :=
    UInt8.toNat_ofNat_of_lt' (show _ < 256 by omega)
  have above := sound.low
  have below := sound.high
  rw [UInt8.le_iff_toNat_le, UInt8.le_iff_toNat_le, value]
  obtain ⟨next, same⟩ : ∃ next, v / 64 ^ s.after = next := ⟨_, rfl⟩
  rw [same] at low high ⊢
  omega

theorem moreHolds {n : Nat} (bits : Nat) :
    Holds ⟨bits, 0x80, 0xBF, n⟩ v ↔ v / 64 ^ (n + 1) = bits := by
  rw [holdsNext, Nat.pow_succ, ← Nat.div_div_eq_div_mul]
  simp only [UInt8.toNat_ofNat]
  generalize v / 64 ^ n = next
  omega

end Begun

namespace Decoder

theorem aheadTails {s : Begun} {v : Nat} (sound : s.Sound) (holds : s.Holds v) (rest : Bytes) :
    ahead (some s) (tails v (s.after + 1) ++ rest) = Char.ofNat v :: ahead none rest := by
  induction left : s.after generalizing s with
  | zero =>
    obtain ⟨inside, bits⟩ := Begun.tailFits sound holds
    rw [left] at inside bits
    rw [tails, List.cons_append, aheadLast inside left, bits, Nat.pow_zero, Nat.div_one]
    rfl
  | succ n ih =>
    obtain ⟨inside, bits⟩ := Begun.tailFits sound holds
    rw [left] at inside bits
    have low := UInt8.le_iff_toNat_le.mp inside.1
    have high := UInt8.le_iff_toNat_le.mp inside.2
    rw [tails, List.cons_append, aheadMore inside left]
    exact ih (Begun.moreSound sound left low high) ((Begun.moreHolds _).mpr bits.symm) rfl

end Decoder

theorem encodePlain {c : Char} (plain : c.toNat < 0x80) :
    String.utf8EncodeChar c = [UInt8.ofNat c.toNat] :=
  if_pos (show c.val.toNat ≤ 0x7F from Nat.lt_succ_iff.mp plain)

section

variable {v : Nat}

theorem encodeTwo (wide : 0x80 ≤ v) (small : v < 0x800) :
    String.utf8EncodeChar (Char.ofNat v) = UInt8.ofNat (v / 64 + 192) :: tails v 1 := by
  have value : (Char.ofNat v).val.toNat = v := charValue (.inl (by omega))
  simp only [String.utf8EncodeChar, value, tails, Nat.pow_zero, Nat.div_one]
  rw [if_neg (by omega), if_pos (by omega), Nat.mod_eq_of_lt (by omega)]

theorem encodeThree (wide : 0x800 ≤ v) (small : v < 0x10000) (valid : v < 0xD800 ∨ 0xDFFF < v) :
    String.utf8EncodeChar (Char.ofNat v) = UInt8.ofNat (v / 4096 + 224) :: tails v 2 := by
  have value : (Char.ofNat v).val.toNat = v :=
    charValue (valid.imp_right fun above => ⟨above, by omega⟩)
  simp only [String.utf8EncodeChar, value, tails, Nat.pow_zero, Nat.pow_one, Nat.div_one]
  rw [if_neg (by omega), if_neg (by omega), if_pos (by omega), Nat.mod_eq_of_lt (by omega)]

theorem encodeFour (wide : 0x10000 ≤ v) (small : v < 0x110000) :
    String.utf8EncodeChar (Char.ofNat v) = UInt8.ofNat (v / 262144 + 240) :: tails v 3 := by
  have value : (Char.ofNat v).val.toNat = v := charValue (.inr (by omega))
  simp only [String.utf8EncodeChar, value, tails, Nat.pow_zero, Nat.pow_one, Nat.div_one]
  rw [if_neg (by omega), if_neg (by omega), if_neg (by omega),
    Nat.mod_eq_of_lt (show v / 262144 < 8 by omega)]
  rfl

end

theorem twoBegins : ∀ n < 32, 2 ≤ n →
    begin? (UInt8.ofNat (n + 192)) = some ⟨n, 0x80, 0xBF, 0⟩ := by decide +kernel

/- The bounds for the second byte leave out what is shorter, and the surrogates. -/
theorem threeBegins : ∀ n < 16, begin? (UInt8.ofNat (n + 224)) =
    some ⟨n, if n = 0 then 0xA0 else 0x80, if n = 13 then 0x9F else 0xBF, 1⟩ := by decide +kernel

theorem fourBegins : ∀ n < 5, begin? (UInt8.ofNat (n + 240)) =
    some ⟨n, if n = 0 then 0x90 else 0x80, if n = 4 then 0x8F else 0xBF, 2⟩ := by decide +kernel

theorem twoHolds {n v : Nat} : Begun.Holds ⟨n, 0x80, 0xBF, 0⟩ v ↔ v / 64 = n := by
  rw [Begun.moreHolds, Nat.zero_add, Nat.pow_one]

theorem threeHolds {n v : Nat} : Begun.Holds
    ⟨n, if n = 0 then 0xA0 else 0x80, if n = 13 then 0x9F else 0xBF, 1⟩ v ↔
      v / 4096 = n ∧ (n = 0 → 0x800 ≤ v) ∧ (n = 13 → v < 0xD800) := by
  have least : (if n = 0 then 0xA0 else 0x80 : UInt8).toNat = if n = 0 then 160 else 128 := by
    split <;> rfl
  have greatest : (if n = 13 then 0x9F else 0xBF : UInt8).toNat = if n = 13 then 159 else 191 := by
    split <;> rfl
  simp only [Begun.holdsNext, Nat.pow_one, least, greatest]
  split <;> split <;> omega

theorem fourHolds {n v : Nat} : Begun.Holds
    ⟨n, if n = 0 then 0x90 else 0x80, if n = 4 then 0x8F else 0xBF, 2⟩ v ↔
      v / 262144 = n ∧ (n = 0 → 0x10000 ≤ v) ∧ (n = 4 → v < 0x110000) := by
  have least : (if n = 0 then 0x90 else 0x80 : UInt8).toNat = if n = 0 then 144 else 128 := by
    split <;> rfl
  have greatest : (if n = 4 then 0x8F else 0xBF : UInt8).toNat = if n = 4 then 143 else 191 := by
    split <;> rfl
  simp only [Begun.holdsNext, show (64 : Nat) ^ 2 = 4096 from rfl, least, greatest]
  split <;> split <;> omega

theorem encodeBegins {c : Char} (wide : 0x80 ≤ c.toNat) : ∃ b s, begin? b = some s ∧
    s.Holds c.toNat ∧ String.utf8EncodeChar c = b :: tails c.toNat (s.after + 1) := by
  have valid : c.toNat < 0xD800 ∨ 0xDFFF < c.toNat ∧ c.toNat < 0x110000 := c.valid
  have same : Char.ofNat c.toNat = c := Char.ofNat_toNat c
  generalize c.toNat = v at wide valid same
  subst same
  by_cases two : v < 0x800
  · exact ⟨_, _, twoBegins (v / 64) (by omega) (by omega), twoHolds.mpr rfl, encodeTwo wide two⟩
  · by_cases three : v < 0x10000
    · exact ⟨_, _, threeBegins (v / 4096) (by omega),
        threeHolds.mpr ⟨rfl, by omega, by omega⟩, encodeThree (by omega) three (by omega)⟩
    · exact ⟨_, _, fourBegins (v / 262144) (by omega),
        fourHolds.mpr ⟨rfl, by omega, by omega⟩, encodeFour (by omega) (by omega)⟩

namespace Decoder

theorem aheadChar (c : Char) (rest : Bytes) :
    ahead none (String.utf8EncodeChar c ++ rest) = c :: ahead none rest := by
  by_cases plain : c.toNat < 0x80
  · obtain ⟨below, same⟩ := charOwn plain
    have first := aheadPlain noneSound below [] rest
    rw [same] at first
    rw [encodePlain plain]
    exact first
  · obtain ⟨b, s, begins, holds, whole⟩ := encodeBegins (Nat.le_of_not_lt plain)
    rw [whole, List.cons_append, aheadBegun begins, aheadTails (Begun.beginSound begins) holds,
      Char.ofNat_toNat]

theorem aheadEncoded (cs : List Char) : ahead none (cs.flatMap String.utf8EncodeChar) = cs := by
  induction cs with
  | nil => rfl
  | cons c cs ih => rw [List.flatMap_cons, aheadChar, ih]

end Decoder

theorem encodeChars (s : String) : encode s = s.toList.flatMap String.utf8EncodeChar := by
  have bytes : s.toByteArray = (s.toList.flatMap String.utf8EncodeChar).toByteArray :=
    String.utf8Encode_toList.symm
  have whole : encode s = s.toByteArray.data.toList := rfl
  rw [whole, bytes, List.data_toByteArray]

theorem decodeEncoded (s : String) : decode (encode s) = s := by
  rw [← String.toList_inj, decodeAhead, encodeChars]
  exact Decoder.aheadEncoded s.toList

end BuildProbe.Text
