import BuildProbe.Artifact.Writing
import Std.Data.String.ToNat
/-!
The site at which the program works: a present directory of its own, and names that are counted up
until one is free.
-/
namespace BuildProbe.Site

def candidate (n : Nat) : String := ".tmp" ++ toString (100000 + n)

def candidates (taken : List String) : List String :=
  (List.range (taken.length + 1)).map candidate

def untaken (taken : List String) : String :=
  ((candidates taken).find? fun name => name ∉ taken).getD (candidate 0)

theorem candidatesApart (taken : List String) : (candidates taken).Nodup := by
  refine List.Pairwise.map _ ?_ List.nodup_range
  intro n m different same
  have number := Nat.repr_injective ((String.append_right_inj ".tmp").mp same)
  omega

theorem untakenCandidate (taken : List String) :
    ∃ n, untaken taken = candidate n ∧ candidate n ∉ taken := by
  unfold untaken
  cases free : (candidates taken).find? fun name => name ∉ taken with
  | some name =>
    obtain ⟨n, _, rfl⟩ := List.mem_map.mp (List.mem_of_find?_eq_some free)
    exact ⟨n, rfl, by simpa using List.find?_some free⟩
  | none =>
    have inside : candidates taken ⊆ taken := by
      intro name known
      simpa using List.find?_eq_none.mp free name known
    have fewer := (candidatesApart taken).length_le_of_subset inside
    rw [candidates, List.length_map, List.length_range] at fewer
    omega

theorem candidateProper (n : Nat) : candidate n ≠ "" ∧ candidate n ≠ "." ∧ candidate n ≠ ".." := by
  have long : 4 ≤ (candidate n).length := by
    rw [candidate, String.length_append]
    exact Nat.le_add_right _ _
  refine ⟨?_, ?_, ?_⟩ <;> intro same <;> rw [same] at long <;> exact absurd long (by decide)

def standard : Site where
  place := "/work"
  name := untaken
  free taken := by
    obtain ⟨n, same, free⟩ := untakenCandidate taken
    rwa [same]
  proper taken := by
    obtain ⟨n, same, _⟩ := untakenCandidate taken
    rw [same]
    exact candidateProper n

end BuildProbe.Site
