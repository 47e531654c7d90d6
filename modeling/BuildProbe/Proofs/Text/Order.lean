import BuildProbe.Proofs.Text.Encoding

/-!
The order of texts. One text comes before another by its characters exactly when its bytes come
before the other's. A greater character has a greater first byte, or it has as many bytes and the
same first one, and then the first of the others that differs is greater.
-/
namespace BuildProbe.Text

def width (v : Nat) : Nat :=
  if v < 0x80 then 0 else if v < 0x800 then 1 else if v < 0x10000 then 2 else 3

def widthMark : Nat → Nat
  | 0 => 0
  | 1 => 192
  | 2 => 224
  | _ => 240

def lead (v : Nat) : Nat := v / 64 ^ width v + widthMark (width v)

section

variable {v v' : Nat}

theorem widthCases (v : Nat) :
    (v < 0x80 ∧ width v = 0) ∨ (0x80 ≤ v ∧ v < 0x800 ∧ width v = 1) ∨
      (0x800 ≤ v ∧ v < 0x10000 ∧ width v = 2) ∨ (0x10000 ≤ v ∧ width v = 3) := by
  unfold width
  split
  · exact .inl ⟨by assumption, rfl⟩
  · split
    · exact .inr (.inl ⟨by omega, by assumption, rfl⟩)
    · split
      · exact .inr (.inr (.inl ⟨by omega, by assumption, rfl⟩))
      · exact .inr (.inr (.inr ⟨by omega, rfl⟩))

theorem encodeWidth (c : Char) :
    String.utf8EncodeChar c = UInt8.ofNat (lead c.toNat) :: tails c.toNat (width c.toNat) := by
  have valid : c.toNat < 0xD800 ∨ 0xDFFF < c.toNat ∧ c.toNat < 0x110000 := c.valid
  have same : Char.ofNat c.toNat = c := Char.ofNat_toNat c
  unfold lead
  rcases widthCases c.toNat with ⟨plain, size⟩ | ⟨wide, small, size⟩ | ⟨wide, small, size⟩ |
    ⟨wide, size⟩
  · simp [encodePlain plain, size, widthMark, tails]
  · have two := encodeTwo wide small
    rw [same] at two
    simp [two, size, widthMark]
  · have three := encodeThree wide small (by omega)
    rw [same] at three
    simp [three, size, widthMark]
  · have four := encodeFour wide (by omega)
    rw [same] at four
    simp [four, size, widthMark]

theorem leadLess (less : v < v') : lead v < lead v' ∨
    width v = width v' ∧ lead v = lead v' ∧ v / 64 ^ width v = v' / 64 ^ width v' := by
  unfold lead
  rcases widthCases v with ⟨_, size⟩ | ⟨_, _, size⟩ | ⟨_, _, size⟩ | ⟨_, size⟩ <;>
    rcases widthCases v' with ⟨_, size'⟩ | ⟨_, _, size'⟩ | ⟨_, _, size'⟩ | ⟨_, size'⟩ <;>
    simp only [size, size', widthMark, true_and] <;> omega

theorem leadByte (small : v < 0x110000) : lead v < 256 := by
  unfold lead
  rcases widthCases v with ⟨_, size⟩ | ⟨_, _, size⟩ | ⟨_, _, size⟩ | ⟨_, size⟩ <;>
    simp only [size, widthMark] <;> omega

theorem byteLess {m n : Nat} (less : m < n) (small : n < 256) : UInt8.ofNat m < UInt8.ofNat n := by
  rw [UInt8.lt_iff_toNat_lt, UInt8.toNat_ofNat_of_lt' (show m < 256 by omega),
    UInt8.toNat_ofNat_of_lt' small]
  exact less

theorem tailsLess {n : Nat} (less : v < v') (same : v / 64 ^ n = v' / 64 ^ n)
    (rest rest' : Bytes) : tails v n ++ rest < tails v' n ++ rest' := by
  induction n with
  | zero =>
    simp only [Nat.pow_zero, Nat.div_one] at same
    omega
  | succ n ih =>
    rw [tails, tails, List.cons_append, List.cons_append, List.cons_lt_cons_iff]
    have grows : v / 64 ^ n ≤ v' / 64 ^ n := Nat.div_le_div_right (Nat.le_of_lt less)
    rw [Nat.pow_succ, ← Nat.div_div_eq_div_mul, ← Nat.div_div_eq_div_mul] at same
    by_cases equal : v / 64 ^ n = v' / 64 ^ n
    · exact .inr ⟨by rw [equal], ih equal⟩
    · exact .inl (byteLess (by omega) (by omega))

end

theorem charLess {c d : Char} (less : c < d) (rest rest' : Bytes) :
    String.utf8EncodeChar c ++ rest < String.utf8EncodeChar d ++ rest' := by
  have less : c.toNat < d.toNat := less
  have valid : d.toNat < 0xD800 ∨ 0xDFFF < d.toNat ∧ d.toNat < 0x110000 := d.valid
  rw [encodeWidth, encodeWidth, List.cons_append, List.cons_append, List.cons_lt_cons_iff]
  rcases leadLess less with greater | ⟨size, first, same⟩
  · exact .inl (byteLess greater (leadByte (by omega)))
  · rw [size] at same ⊢
    exact .inr ⟨by rw [first], tailsLess less same rest rest'⟩

theorem charsLess {cs ds : List Char} (less : cs < ds) :
    cs.flatMap String.utf8EncodeChar < ds.flatMap String.utf8EncodeChar := by
  induction cs generalizing ds with
  | nil =>
    cases ds with
    | nil => exact absurd less (List.lt_irrefl [])
    | cons d ds =>
      rw [List.flatMap_cons, encodeWidth]
      exact List.nil_lt_cons _ _
  | cons c cs ih =>
    cases ds with
    | nil => exact absurd less (List.not_lt_nil _)
    | cons d ds =>
      rw [List.flatMap_cons, List.flatMap_cons]
      rcases List.cons_lt_cons_iff.mp less with smaller | ⟨rfl, later⟩
      · exact charLess smaller _ _
      · exact List.append_left_lt (ih later)

theorem encodeLess {s s' : String} : encode s < encode s' ↔ s < s' := by
  have forward : ∀ {s s' : String}, s < s' → encode s < encode s' := by
    intro s s' less
    rw [encodeChars, encodeChars]
    exact charsLess (String.lt_iff_toList_lt.mp less)
  refine ⟨fun less => ?_, forward⟩
  rcases Std.lt_trichotomy s s' with before | rfl | behind
  · exact before
  · exact absurd less (List.lt_irrefl _)
  · exact absurd (List.lt_trans less (forward behind)) (List.lt_irrefl _)

end BuildProbe.Text
