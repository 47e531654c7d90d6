import BuildProbe.Text.Json.Reader

/-!
Reading JSON text back. What a value is written as, followed by anything that cannot belong to a
number, is read as that value, and what follows is left over. The proof goes with the writer: one
character of a string at a time, the digits of a number, and then the items of an array and the
fields of an object, each from the comma before it. The reader's fuel is measured by the text that
is ahead, two units for a character.
-/
namespace BuildProbe.Json

/-! ## Strings -/

theorem hexDigitValue : ∀ n < 16, hexValue? (hexDigit n) = some n := by decide

theorem escapedNumber {c : Char} (control : c.toNat < 0x20) (rest : List Char) :
    escaped? ('u' :: '0' :: '0' :: hexDigit (c.toNat / 16) :: hexDigit (c.toNat % 16) :: rest) =
      some (c, rest) := by
  have zero : hexValue? '0' = some 0 := by decide
  have high := hexDigitValue (c.toNat / 16) (by omega)
  have low := hexDigitValue (c.toNat % 16) (by omega)
  have value : ((0 * 16 + 0) * 16 + c.toNat / 16) * 16 + c.toNat % 16 = c.toNat := by omega
  have lead : isLead c.toNat = false := by simp [isLead]; omega
  have trail : isTrail c.toNat = false := by simp [isTrail]; omega
  simp only [escaped?, unit?, zero, high, low, bind, Option.bind, value, lead, trail,
    Bool.false_eq_true, if_false, Char.ofNat_toNat]

theorem bodyEscape (c : Char) (fuel : Nat) (rest : List Char) :
    body? (fuel + 1) (escape c ++ rest) =
      (body? fuel rest).map fun (cs, rest) => (c :: cs, rest) := by
  have backslash : ∀ code tail, escaped? (code ++ rest) = some (c, rest) → tail = code ++ rest →
      body? (fuel + 1) ('\\' :: tail) =
        (body? fuel rest).map fun (cs, rest) => (c :: cs, rest) := by
    intro code tail read same
    rw [body?, if_neg (by decide), if_pos rfl, same, read]
    simp only [bind, Option.bind]
    cases body? fuel rest <;> rfl
  unfold escape
  split
  · rename_i own; exact backslash ['"'] _ (by rw [own]; rfl) rfl
  split
  · rename_i own; exact backslash ['\\'] _ (by rw [own]; rfl) rfl
  split
  · rename_i own; exact backslash ['b'] _ (by rw [own]; rfl) rfl
  split
  · rename_i own; exact backslash ['t'] _ (by rw [own]; rfl) rfl
  split
  · rename_i own; exact backslash ['n'] _ (by rw [own]; rfl) rfl
  split
  · rename_i own; exact backslash ['f'] _ (by rw [own]; rfl) rfl
  split
  · rename_i own; exact backslash ['r'] _ (by rw [own]; rfl) rfl
  split
  · rename_i control
    exact backslash ['u', '0', '0', hexDigit (c.toNat / 16), hexDigit (c.toNat % 16)] _
      (escapedNumber control rest) rfl
  · rename_i mark slash _ _ _ _ _ control
    rw [List.singleton_append, body?, if_neg mark, if_neg slash, if_neg control]
    cases body? fuel rest <;> rfl

theorem bodyReads (s : List Char) {fuel : Nat} (enough : s.length < fuel) (rest : List Char) :
    body? fuel (s.flatMap escape ++ '"' :: rest) = some (s, rest) := by
  induction s generalizing fuel with
  | nil =>
    cases fuel with
    | zero => cases enough
    | succ fuel => rw [List.flatMap_nil, List.nil_append, body?, if_pos rfl]
  | cons c s ih =>
    cases fuel with
    | zero => cases enough
    | succ fuel =>
      rw [List.flatMap_cons, List.append_assoc, bodyEscape, ih (Nat.lt_of_succ_lt_succ enough)]
      rfl

theorem escapeLong (c : Char) : 1 ≤ (escape c).length := by
  unfold escape
  (repeat' split) <;> simp

theorem quoteReads (s : String) (rest : List Char) :
    string? (quote s.toList ++ rest) = some (s, rest) := by
  have long : s.toList.length ≤ (s.toList.flatMap escape).length := by
    induction s.toList with
    | nil => exact Nat.le_refl _
    | cons c cs ih =>
      have first := escapeLong c
      simp only [List.flatMap_cons, List.length_append, List.length_cons]
      omega
  have text : quote s.toList ++ rest = '"' :: (s.toList.flatMap escape ++ '"' :: rest) := by
    simp [quote]
  rw [text, string?, bodyReads s.toList (by simp only [List.length_append]; omega)]
  simp [bind, Option.bind]

/-! ## Numbers -/

/- What can follow a number: no digit, and nothing that would make it a fraction or a power. -/
def Ends (rest : List Char) : Prop :=
  ∀ c ∈ rest.head?, c.isDigit = false ∧ c ≠ '.' ∧ c ≠ 'e' ∧ c ≠ 'E'

theorem digitsFirst {n : Nat} (positive : 0 < n) : (Nat.toDigits 10 n).head? ≠ some '0' := by
  induction n using Nat.strongRecOn with
  | ind n ih =>
    by_cases small : n < 10
    · rw [Nat.toDigits_of_lt_base small]
      simp only [List.head?_cons, ne_eq, Option.some.injEq, Nat.digitChar_eq_zero]
      omega
    · rw [Nat.toDigits_of_base_le (by decide) (by omega), List.head?_append]
      have before := ih (n / 10) (by omega) (by omega)
      cases first : (Nat.toDigits 10 (n / 10)).head? with
      | none => exact absurd (List.head?_eq_none_iff.mp first) Nat.toDigits_ne_nil
      | some c =>
        rw [first] at before
        exact before

theorem digitsValue (n : Nat) :
    (Nat.toDigits 10 n).foldl (fun n c => 10 * n + (c.toNat - 48)) 0 = n := by
  have value : Nat.ofDigitChars 10 (Nat.toDigits 10 n) 0 = n := Nat.ofDigitChars_ten_toDigits
  rw [Nat.ofDigitChars_eq_foldl] at value
  exact value

theorem spanDigits {digits rest : List Char} (all : ∀ c ∈ digits, c.isDigit = true)
    (ends : Ends rest) :
    (digits ++ rest).takeWhile Char.isDigit = digits ∧
      (digits ++ rest).dropWhile Char.isDigit = rest := by
  rw [List.takeWhile_append_of_pos all, List.dropWhile_append_of_pos all]
  cases rest with
  | nil => simp
  | cons c rest =>
    have other := (ends c rfl).1
    simp [other]

theorem naturalReads (n : Nat) {rest : List Char} (ends : Ends rest) :
    natural? (Nat.toDigits 10 n ++ rest) = some (n, rest) := by
  have all : ∀ c ∈ Nat.toDigits 10 n, c.isDigit = true :=
    fun c member => Nat.isDigit_of_mem_toDigits (by decide) (by decide) member
  obtain ⟨taken, left⟩ := spanDigits all ends
  unfold natural?
  simp only [taken, left]
  split
  · rename_i none
    exact absurd none Nat.toDigits_ne_nil
  · exact absurd rfl (ends '.' rfl).2.1
  · exact absurd rfl (ends 'e' rfl).2.2.1
  · exact absurd rfl (ends 'E' rfl).2.2.2
  · rename_i digits _ _ _
    cases n with
    | zero => cases digits
    | succ n =>
      have first := digitsFirst (Nat.succ_pos n)
      rw [digits] at first
      exact absurd rfl first
  · rw [digitsValue]

theorem digitsHead (n : Nat) : ∃ d ds, Nat.toDigits 10 n = d :: ds ∧ d.isDigit = true := by
  cases digits : Nat.toDigits 10 n with
  | nil => exact absurd digits Nat.toDigits_ne_nil
  | cons d ds =>
    refine ⟨d, ds, rfl, ?_⟩
    exact Nat.isDigit_of_mem_toDigits (by decide) (by decide) (digits ▸ List.mem_cons_self)

theorem naturalText (n : Nat) : (toString (Int.ofNat n)).toList = Nat.toDigits 10 n :=
  Nat.toList_repr

theorem negativeText (n : Nat) :
    (toString (Int.negSucc n)).toList = '-' :: Nat.toDigits 10 (n + 1) := by
  simp [toString, Int.repr, Nat.toList_repr]

theorem integerHead (i : Int) :
    ∃ d ds, (toString i).toList = d :: ds ∧ (d.isDigit = true ∨ d = '-') := by
  cases i with
  | ofNat n =>
    obtain ⟨d, ds, digits, digit⟩ := digitsHead n
    exact ⟨d, ds, (naturalText n).trans digits, .inl digit⟩
  | negSucc n => exact ⟨'-', _, negativeText n, .inr rfl⟩

theorem integerReads (i : Int) {rest : List Char} (ends : Ends rest) :
    integer? ((toString i).toList ++ rest) = some (i, rest) := by
  cases i with
  | ofNat n =>
    rw [naturalText]
    unfold integer?
    split
    · rename_i minus
      obtain ⟨d, ds, digits, digit⟩ := digitsHead n
      rw [digits] at minus
      cases minus
      cases digit
    · rw [naturalReads n ends]
      rfl
  | negSucc n =>
    rw [negativeText, List.cons_append, integer?, naturalReads (n + 1) ends]
    rfl

/-! ## Values -/

theorem skipSolid {c : Char} (solid : isBlank c = false) (cs : List Char) :
    skipBlanks (c :: cs) = c :: cs := by
  rw [skipBlanks, List.dropWhile_cons_of_neg (by simp [solid])]

theorem skipIndent (level : Nat) (cs : List Char) :
    skipBlanks (indent level ++ cs) = skipBlanks cs := by
  have blanks : ∀ k, skipBlanks (List.replicate k ' ' ++ cs) = skipBlanks cs := by
    intro k
    induction k with
    | zero => rfl
    | succ k ih => exact ih
  exact blanks (2 * level)

theorem valueSkip (level fuel : Nat) (cs : List Char) :
    value? fuel (indent level ++ cs) = value? fuel cs := by
  cases fuel with
  | zero => rfl
  | succ fuel => rw [value?, value?, skipIndent]

theorem itemsSkip (level fuel : Nat) (cs : List Char) :
    items? fuel (indent level ++ cs) = items? fuel cs := by
  cases fuel with
  | zero => rfl
  | succ fuel => rw [items?, items?, valueSkip]

theorem fieldsSkip (level fuel : Nat) (cs : List Char) :
    fields? fuel (indent level ++ cs) = fields? fuel cs := by
  cases fuel with
  | zero => rfl
  | succ fuel => rw [fields?, fields?, skipIndent]

theorem numberSolid {d : Char} (digit : d.isDigit = true ∨ d = '-') :
    isBlank d = false ∧ d ≠ ']' ∧ d ≠ '"' ∧ d ≠ '[' ∧ d ≠ '\x7b' ∧ d ≠ 'n' ∧ d ≠ 't' ∧ d ≠ 'f' := by
  have apart : ∀ c : Char, c.isDigit = false → c ≠ '-' → d ≠ c := by
    rintro c other sign rfl
    rcases digit with digit | minus
    · rw [other] at digit
      cases digit
    · exact sign minus
  refine ⟨?_, ?_⟩
  · simp only [isBlank, Bool.or_eq_false_iff, beq_eq_false_iff_ne]
    refine ⟨⟨⟨?_, ?_⟩, ?_⟩, ?_⟩ <;> exact apart _ (by decide) (by decide)
  · refine ⟨?_, ?_, ?_, ?_, ?_, ?_, ?_⟩ <;> exact apart _ (by decide) (by decide)

theorem prettyHead (level : Nat) (j : Json) :
    ∃ c cs, pretty level j = c :: cs ∧ isBlank c = false ∧ c ≠ ']' := by
  cases j with
  | null => exact ⟨'n', _, by rw [pretty]; rfl, by decide, by decide⟩
  | bool b =>
    cases b with
    | true => exact ⟨'t', _, by rw [pretty]; rfl, by decide, by decide⟩
    | false => exact ⟨'f', _, by rw [pretty]; rfl, by decide, by decide⟩
  | int i =>
    obtain ⟨d, ds, text, digit⟩ := integerHead i
    exact ⟨d, ds, by rw [pretty, text], (numberSolid digit).1, (numberSolid digit).2.1⟩
  | str s => exact ⟨'"', _, by rw [pretty]; rfl, by decide, by decide⟩
  | arr items => cases items <;> exact ⟨'[', _, by rw [pretty], by decide, by decide⟩
  | obj fields =>
    cases fields with
    | nil => exact ⟨'\x7b', _, by rw [pretty], by decide, by decide⟩
    | cons field fields => exact ⟨'\x7b', _, by rw [pretty], by decide, by decide⟩

theorem numberReads (i : Int) {fuel : Nat} (enough : 0 < fuel) {rest : List Char}
    (ends : Ends rest) : value? fuel ((toString i).toList ++ rest) = some (.int i, rest) := by
  have read := integerReads i ends
  obtain ⟨d, ds, text, digit⟩ := integerHead i
  obtain ⟨solid, -, quote, bracket, brace, n, t, f⟩ := numberSolid digit
  rw [text, List.cons_append] at read ⊢
  have word : word? (d :: (ds ++ rest)) = none := by
    unfold word?
    split
    · rename_i same
      exact absurd (List.cons.inj same).1 n
    · rename_i same
      exact absurd (List.cons.inj same).1 t
    · rename_i same
      exact absurd (List.cons.inj same).1 f
    · rfl
  cases fuel with
  | zero => cases enough
  | succ fuel =>
    rw [value?, skipSolid solid]
    split
    · rename_i same
      exact absurd (List.cons.inj same).1 quote
    · rename_i same
      exact absurd (List.cons.inj same).1 bracket
    · rename_i same
      exact absurd (List.cons.inj same).1 brace
    · rw [word, read]
      rfl

theorem endsIndent (level : Nat) (cs : List Char) : Ends (indent level ++ cs) := by
  rintro c ⟨⟩
  decide

theorem endsComma (cs : List Char) : Ends (',' :: cs) := by
  rintro c ⟨⟩
  decide

theorem itemsTail (level : Nat) (x : Json) (xs : List Json) :
    (prettyItems level (x :: xs)).tail =
      indent level ++ (pretty level x ++ prettyItems level xs) := by
  rw [prettyItems, List.tail_cons, List.append_assoc]

theorem fieldsTail (level : Nat) (k : String) (v : Json) (fields : List (String × Json)) :
    (prettyFields level ((k, v) :: fields)).tail =
      indent level ++ (quote k.toList ++
        ':' :: ' ' :: (pretty level v ++ prettyFields level fields)) := by
  rw [prettyFields, List.tail_cons]
  simp

mutual

theorem valueReads : ∀ (j : Json) (level fuel : Nat) (rest : List Char),
    2 * (pretty level j).length ≤ fuel → Ends rest →
      value? fuel (pretty level j ++ rest) = some (j, rest)
  | j, level, 0, rest, enough, _ => by
    obtain ⟨c, cs, text, _⟩ := prettyHead level j
    rw [text, List.length_cons] at enough
    omega
  | .null, level, fuel + 1, rest, _, _ => by
    rw [pretty, value?]
    rfl
  | .bool true, level, fuel + 1, rest, _, _ => by
    rw [pretty, value?]
    rfl
  | .bool false, level, fuel + 1, rest, _, _ => by
    rw [pretty, value?]
    rfl
  | .int i, level, fuel + 1, rest, _, ends => by
    rw [pretty]
    exact numberReads i (Nat.succ_pos fuel) ends
  | .str s, level, fuel + 1, rest, _, _ => by
    have read := quoteReads s rest
    rw [pretty, value?]
    rw [quote, List.cons_append] at read ⊢
    rw [skipSolid (by decide)]
    simp only [read, Option.map_some]
  | .arr [], level, fuel + 1, rest, _, _ => by
    rw [pretty, value?]
    rfl
  | .obj [], level, fuel + 1, rest, _, _ => by
    rw [pretty, value?]
    rfl
  | .arr (x :: xs), level, fuel + 1, rest, enough, _ => by
    have text : pretty level (.arr (x :: xs)) =
        '[' :: ((prettyItems (level + 1) (x :: xs)).tail ++ (indent level ++ [']'])) := by
      rw [pretty, itemsTail]
      simp
    rw [text, List.length_cons, List.length_append, List.length_append] at enough
    have read := itemsReads (x :: xs) (level + 1) level fuel rest (List.cons_ne_nil _ _)
      (by simp only [List.length_singleton] at enough; omega)
    obtain ⟨c, cs, head, solid, open'⟩ := prettyHead (level + 1) x
    rw [itemsTail, head, List.append_assoc, itemsSkip] at read
    rw [text, itemsTail, head, List.cons_append, value?, skipSolid (by decide)]
    simp only [List.append_assoc, List.cons_append, List.nil_append] at read ⊢
    rw [skipIndent, skipSolid solid]
    split
    · rename_i same
      exact absurd (List.cons.inj same).1 open'
    · rw [read]
      rfl
  | .obj ((k, v) :: fields), level, fuel + 1, rest, enough, _ => by
    have text : pretty level (.obj ((k, v) :: fields)) =
        '\x7b' :: ((prettyFields (level + 1) ((k, v) :: fields)).tail ++
          (indent level ++ ['\x7d'])) := by
      rw [pretty, fieldsTail]
      simp
    rw [text, List.length_cons, List.length_append, List.length_append] at enough
    have read := fieldsReads ((k, v) :: fields) (level + 1) level fuel rest (List.cons_ne_nil _ _)
      (by simp only [List.length_singleton] at enough; omega)
    rw [fieldsTail, List.append_assoc, fieldsSkip] at read
    rw [text, fieldsTail, List.cons_append, value?, skipSolid (by decide)]
    simp only [List.append_assoc, List.cons_append, List.nil_append, quote] at read ⊢
    rw [skipIndent, skipSolid (by decide)]
    split
    · rename_i same
      exact absurd (List.cons.inj same).1 (by decide)
    · rw [read]
      rfl

theorem itemsReads : ∀ (items : List Json) (level outer fuel : Nat) (rest : List Char),
    items ≠ [] → 2 * (prettyItems level items).tail.length + 1 ≤ fuel →
      items? fuel ((prettyItems level items).tail ++ (indent outer ++ ']' :: rest)) =
        some (items, rest)
  | [], _, _, _, _, filled, _ => absurd rfl filled
  | x :: xs, level, outer, 0, rest, _, enough => by omega
  | x :: xs, level, outer, fuel + 1, rest, _, enough => by
    rw [itemsTail, List.length_append, List.length_append] at enough
    rw [itemsTail, List.append_assoc, itemsSkip, List.append_assoc, items?]
    cases xs with
    | nil =>
      have first := valueReads x level fuel (indent outer ++ ']' :: rest) (by omega)
        (endsIndent _ _)
      have none : prettyItems level [] = [] := by rw [prettyItems]
      rw [none, List.nil_append, first]
      simp only [bind, Option.bind]
      rw [skipIndent, skipSolid (by decide)]
      rfl
    | cons y ys =>
      have comma : prettyItems level (y :: ys) = ',' :: (prettyItems level (y :: ys)).tail := by
        rw [prettyItems, List.tail_cons]
      rw [comma, List.length_cons] at enough
      have first := valueReads x level fuel (prettyItems level (y :: ys) ++
        (indent outer ++ ']' :: rest)) (by omega) (by rw [comma]; exact endsComma _)
      have later := itemsReads (y :: ys) level outer fuel rest (List.cons_ne_nil _ _) (by omega)
      rw [first]
      simp only [bind, Option.bind]
      rw [comma, List.cons_append, skipSolid (by decide)]
      simp only [later]

theorem fieldsReads : ∀ (fields : List (String × Json)) (level outer fuel : Nat)
    (rest : List Char), fields ≠ [] → 2 * (prettyFields level fields).tail.length + 1 ≤ fuel →
      fields? fuel ((prettyFields level fields).tail ++ (indent outer ++ '\x7d' :: rest)) =
        some (fields, rest)
  | [], _, _, _, _, filled, _ => absurd rfl filled
  | (k, v) :: fields, level, outer, 0, rest, _, enough => by omega
  | (k, v) :: fields, level, outer, fuel + 1, rest, _, enough => by
    rw [fieldsTail] at enough
    simp only [List.length_append, List.length_cons] at enough
    have solid : skipBlanks (quote k.toList ++ ':' :: ' ' ::
        (pretty level v ++ prettyFields level fields) ++ (indent outer ++ '\x7d' :: rest)) =
        quote k.toList ++ ':' :: ' ' ::
          (pretty level v ++ (prettyFields level fields ++ (indent outer ++ '\x7d' :: rest))) := by
      simp only [List.append_assoc, List.cons_append, quote]
      exact skipSolid (by decide) _
    rw [fieldsTail, List.append_assoc, fieldsSkip, fields?, solid, quoteReads]
    simp only [bind, Option.bind]
    rw [skipSolid (by decide)]
    simp only
    have blank : ∀ cs, value? fuel (' ' :: cs) = value? fuel cs := by
      intro cs
      cases fuel with
      | zero => rfl
      | succ fuel => rw [value?, value?]; rfl
    rw [blank]
    cases fields with
    | nil =>
      have first := valueReads v level fuel (indent outer ++ '\x7d' :: rest) (by omega)
        (endsIndent _ _)
      have none : prettyFields level [] = [] := by rw [prettyFields]
      rw [none, List.nil_append, first]
      simp only
      rw [skipIndent, skipSolid (by decide)]
      rfl
    | cons field fields =>
      have comma : prettyFields level (field :: fields) =
          ',' :: (prettyFields level (field :: fields)).tail := by
        obtain ⟨k', v'⟩ := field
        rw [prettyFields, List.tail_cons]
      rw [comma, List.length_cons] at enough
      have first := valueReads v level fuel (prettyFields level (field :: fields) ++
        (indent outer ++ '\x7d' :: rest)) (by omega) (by rw [comma]; exact endsComma _)
      have later := fieldsReads (field :: fields) level outer fuel rest (List.cons_ne_nil _ _)
        (by omega)
      rw [first]
      simp only
      rw [comma, List.cons_append, skipSolid (by decide)]
      simp only [later]

end

theorem renderReads (j : Json) : parse? (j.render ++ "\n") = some j := by
  have text : (j.render ++ "\n").toList = pretty 0 j ++ ['\n'] := by
    simp [render]
  have read := valueReads j 0 (2 * (pretty 0 j ++ ['\n']).length + 2) ['\n']
    (by rw [List.length_append]; omega) (by rintro c ⟨⟩; decide)
  rw [parse?, text, read]
  rfl

end BuildProbe.Json
