import BuildProbe.Path

/-!
The rungs between a path's directory and the paths above it. A path without blank pieces at its end
is the path above it, perhaps some blank pieces, and one piece more. A ladder leads down from a
path, each rung one such piece further.
-/
namespace BuildProbe.Path

structure Proper (p : Path) : Prop where
  filled : p.pieces ≠ []
  names : ∀ name ∈ p.pieces, name ≠ "" ∧ name ≠ "." ∧ name ≠ ".."

instance (p : Path) : Decidable p.Proper :=
  decidable_of_iff (p.pieces ≠ [] ∧ ∀ name ∈ p.pieces, name ≠ "" ∧ name ≠ "." ∧ name ≠ "..")
    ⟨fun ⟨filled, names⟩ => ⟨filled, names⟩, fun proper => ⟨proper.filled, proper.names⟩⟩

def Blank (piece : String) : Prop := piece = "" ∨ piece = "."
instance (piece : String) : Decidable (Blank piece) := by
  unfold Blank; infer_instance

theorem trimBlank (absolute : Bool) (ps : List String) :
    ∃ blanks, (∀ b ∈ blanks, Blank b) ∧ ps = blanks ++ trim absolute ps := by
  fun_induction trim absolute ps with
  | case1 => exact ⟨[], by simp, rfl⟩
  | case2 p h => exact ⟨[p], by simpa [Blank] using h.imp_right And.left, rfl⟩
  | case3 p h => exact ⟨[], by simp, rfl⟩
  | case4 p q rest h ih =>
    obtain ⟨blanks, blank, same⟩ := ih
    refine ⟨p :: blanks, ?_, congrArg (List.cons p) same⟩
    intro b member
    rcases List.mem_cons.mp member with rfl | member
    · exact h
    · exact blank b member
  | case5 p q rest h => exact ⟨[], by simp, rfl⟩

theorem trimTwice (absolute : Bool) (ps : List String) :
    trim absolute (trim absolute ps) = trim absolute ps := by
  fun_induction trim absolute ps with
  | case1 => rfl
  | case2 p h => rfl
  | case3 p h => rw [trim, if_neg h]
  | case4 p q rest h ih => exact ih
  | case5 p q rest h => rw [trim, if_neg h]

def Trimmed (p : Path) : Prop := trim p.absolute p.pieces.reverse = p.pieces.reverse

theorem trimmedCases {p : Path} (trimmed : p.Trimmed) :
    p.pieces = [] ∨ p = here ∨ ∃ before last, p.pieces = before ++ [last] ∧ ¬ Blank last := by
  obtain ⟨absolute, pieces⟩ := p
  rcases List.eq_nil_or_concat pieces with rfl | ⟨before, last, rfl⟩
  · exact .inl rfl
  · right
    by_cases blank : Blank last
    · left
      simp only [Trimmed, List.concat_eq_append, List.reverse_append, List.reverse_singleton,
        List.singleton_append] at trimmed
      cases above : before.reverse with
      | nil =>
        rw [above, trim] at trimmed
        split at trimmed
        · cases trimmed
        · rename_i kept
          have dot : last = "." ∧ absolute = false := by
            rcases blank with rfl | rfl
            · exact absurd (.inl rfl) kept
            · exact ⟨rfl, by simpa using kept⟩
          obtain ⟨rfl, rfl⟩ := dot
          rw [List.reverse_eq_nil_iff.mp above]
          rfl
      | cons q rest =>
        have shorter := trimShorter absolute (q :: rest)
        have skip : last = "" ∨ last = "." := blank
        rw [above, trim, if_pos skip] at trimmed
        rw [trimmed] at shorter
        exact absurd shorter (by simp)
    · exact .inr ⟨before, last, List.concat_eq_append .., blank⟩

structure Rung (below above : Path) : Prop where
  absolute : below.absolute = above.absolute
  pieces : ∃ blanks last, (∀ b ∈ blanks, Blank b) ∧ below.pieces = above.pieces ++ blanks ++ [last]

theorem parentTrimmed {p above : Path} (higher : p.parent? = some above) : above.Trimmed := by
  unfold parent? at higher
  split at higher <;> try contradiction
  cases Option.some.inj higher
  simp only [Trimmed, List.reverse_reverse, trimTwice]

theorem parentRung {p above : Path} (trimmed : p.Trimmed) (higher : p.parent? = some above) :
    p.Rung above := by
  unfold parent? at higher
  split at higher <;> try contradiction
  rename_i last rest same
  cases Option.some.inj higher
  obtain ⟨blanks, blank, lower⟩ := trimBlank p.absolute rest
  refine ⟨rfl, blanks.reverse, last, by simpa using blank, ?_⟩
  have reversed : p.pieces.reverse = last :: (blanks ++ trim p.absolute rest) := by
    rw [← lower, ← same]
    exact trimmed.symm
  simpa using congrArg List.reverse reversed

theorem parentNone {p : Path} (trimmed : p.Trimmed) (top : p.parent? = none) : p.pieces = [] := by
  unfold parent? at top
  split at top
  · rename_i bare
    exact List.reverse_eq_nil_iff.mp (trimmed.symm.trans bare)
  · cases top

/- The paths lead down from the first one, each a rung further, and end at the last one. -/
def Ladder (above : Path) : List Path → Path → Prop
  | [], last => above = last
  | below :: rest, last => below.Rung above ∧ below.Trimmed ∧ below.Ladder rest last

theorem ladderHere (p : Path) : p.Ladder [] p := rfl

theorem ladderPieces {above last : Path} {rungs : List Path} (ladder : above.Ladder rungs last) :
    last.absolute = above.absolute ∧ ∃ lower, last.pieces = above.pieces ++ lower := by
  induction rungs generalizing above with
  | nil => exact ⟨ladder ▸ rfl, [], by rw [List.append_nil, ladder]⟩
  | cons below rungs ih =>
    obtain ⟨⟨absolute, blanks, piece, -, pieces⟩, -, rest⟩ := ladder
    obtain ⟨same, lower, onward⟩ := ih rest
    refine ⟨same.trans absolute, blanks ++ [piece] ++ lower, ?_⟩
    rw [onward, pieces]
    simp only [List.append_assoc]

theorem textSize (p : Path) (lower : List String) :
    p.text.utf8ByteSize ≤ (⟨p.absolute, p.pieces ++ lower⟩ : Path).text.utf8ByteSize := by
  simp only [text, String.utf8ByteSize_append, Nat.add_le_add_iff_left]
  by_cases none : lower = []
  · exact Nat.le_of_eq (by rw [none, List.append_nil])
  · by_cases bare : p.pieces = []
    · rw [bare, String.intercalate_nil]
      exact Nat.zero_le _
    · rw [String.intercalate_append_of_ne_nil bare none]
      simp only [String.utf8ByteSize_append]
      omega

theorem directoryTrimmed (p : Path) : p.directory.Trimmed := by
  unfold directory
  split
  · rename_i above higher
    split
    · rfl
    · exact parentTrimmed higher
  · rfl

theorem directoryFilled (p : Path) : p.directory.isEmpty = false := by
  unfold directory
  split
  · split
    · rfl
    · rename_i filled
      simpa using filled
  · rfl

theorem directoryPieces {p : Path} {before : List String} {name : String} {k : Nat}
    (named : ¬ Blank name) (pieces : p.pieces = before ++ name :: List.replicate k "") :
    ∃ blanks, (∀ b ∈ blanks, Blank b) ∧
      (p.directory.absolute = p.absolute ∧ before = p.directory.pieces ++ blanks ∨
        p.directory = here ∧ p.absolute = false ∧ before = blanks) := by
  have last : trim p.absolute p.pieces.reverse = name :: before.reverse := by
    rw [pieces]
    simp only [List.reverse_append, List.reverse_cons, List.reverse_replicate, List.append_assoc]
    clear pieces
    induction k with
    | zero =>
      cases above : before.reverse with
      | nil =>
        have kept : ¬(name = "" ∨ name = "." ∧ p.absolute = true) :=
          fun h => named (h.imp_right And.left)
        simp only [List.replicate_zero, List.nil_append, List.append_nil, trim, if_neg kept]
      | cons q rest =>
        have kept : ¬(name = "" ∨ name = ".") := named
        simp only [List.replicate_zero, List.nil_append, List.singleton_append, trim, if_neg kept]
    | succ k ih =>
      rw [List.replicate_succ, List.cons_append]
      obtain ⟨q, rest, more⟩ : ∃ q rest,
          List.replicate k "" ++ ([name] ++ before.reverse) = q :: rest := by
        cases k <;> exact ⟨_, _, rfl⟩
      rw [more] at ih ⊢
      rw [trim, if_pos (.inl rfl), ih]
  obtain ⟨blanks, blank, higher⟩ := trimBlank p.absolute before.reverse
  refine ⟨blanks.reverse, by simpa using blank, ?_⟩
  have whole : before = (trim p.absolute before.reverse).reverse ++ blanks.reverse := by
    simpa using congrArg List.reverse higher
  have parent : p.parent? = some ⟨p.absolute, (trim p.absolute before.reverse).reverse⟩ := by
    simp only [parent?, last]
  unfold directory
  simp only [parent]
  split
  · rename_i bare
    simp only [isEmpty, Bool.and_eq_true, Bool.not_eq_true', List.isEmpty_iff] at bare
    refine .inr ⟨rfl, bare.1, ?_⟩
    rw [bare.2, List.nil_append] at whole
    exact whole
  · exact .inl ⟨rfl, whole⟩

theorem directoryHere {p : Path} {before : List String} {name : String} (named : ¬ Blank name)
    (relative : p.absolute = false) (blank : ∀ b ∈ before, Blank b)
    (pieces : p.pieces = before ++ [name]) : p.directory = here := by
  obtain ⟨blanks, _, ⟨absolute, whole⟩ | ⟨same, _⟩⟩ := directoryPieces (k := 0) named pieces
  · rcases trimmedCases p.directoryTrimmed with none | same | ⟨front, last, ends, filled⟩
    · have some := p.directoryFilled
      rw [isEmpty, absolute, relative, none] at some
      cases some
    · exact same
    · have inside : last ∈ before := by
        rw [whole, ends]
        exact List.mem_append_left _ (List.mem_append_right _ List.mem_cons_self)
      exact absurd (blank last inside) filled
  · exact same

end BuildProbe.Path
