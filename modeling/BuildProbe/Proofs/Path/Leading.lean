import BuildProbe.Path

/-!
The way to a path's directory. Going from a path to the text before its last component, and on
from there, only ever gives leading parts of the path; the directory of a path is one of them
unless it is the present directory, which a path of one name does not mention.
-/
namespace BuildProbe.Path

def Leads (part p : Path) : Prop :=
  ∃ n < p.pieces.length, part = ⟨p.absolute, p.pieces.take n⟩

theorem trimSuffix (absolute : Bool) (ps : List String) : trim absolute ps <:+ ps := by
  fun_induction trim absolute ps with
  | case1 => exact List.suffix_refl _
  | case2 p h => exact List.nil_suffix
  | case3 p h => exact List.suffix_refl _
  | case4 p q rest h ih => exact ih.trans (List.suffix_cons p (q :: rest))
  | case5 p q rest h => exact List.suffix_refl _

theorem parentLeads {p d : Path} (h : p.parent? = some d) : d.Leads p := by
  have shorter := parentShorter h
  unfold parent? at h
  split at h <;> try contradiction
  rename_i last rest trimmed
  cases Option.some.inj h
  have suffix : (trim p.absolute rest) <:+ p.pieces.reverse :=
    (trimSuffix p.absolute rest).trans
      ((List.suffix_cons last rest).trans (trimmed ▸ trimSuffix p.absolute p.pieces.reverse))
  have leading : (trim p.absolute rest).reverse <+: p.pieces := by
    simpa using List.reverse_prefix.mpr suffix
  exact ⟨_, shorter, by rw [← List.prefix_iff_eq_take.mp leading]⟩

theorem leadsTrans {a b c : Path} (first : a.Leads b) (second : b.Leads c) : a.Leads c := by
  obtain ⟨n, short, rfl⟩ := first
  obtain ⟨m, shorter, rfl⟩ := second
  simp only [List.length_take] at short
  refine ⟨n, by omega, ?_⟩
  rw [List.take_take, Nat.min_eq_left (by omega)]

theorem directoryLeads (p : Path) : p.directory = here ∨ p.directory.Leads p := by
  unfold directory
  split
  · rename_i d above
    by_cases bare : d.isEmpty
    · exact .inl (if_pos bare)
    · exact .inr (by rw [if_neg bare]; exact parentLeads above)
  · exact .inl rfl


end BuildProbe.Path
