import BuildProbe.Proofs.Tree.Headway
import BuildProbe.Proofs.Tree.Roads

/-!
Where a file stands in the way. A walk that ends badly stays so however much longer the path gets.
One that is halted by a file neither misses anything nor arrives, so a path along it can neither be
made a directory nor does it lead to one.
-/
namespace BuildProbe.Tree

open BuildProbe.Path (Blank)

variable {t : Tree} {links : Nat} {way : List Nat} {dir : Path}

theorem walkError {follow : Bool} {before after : List String} {why : Errno} (more : after ≠ [])
    (failed : t.walk true links way before = .error why) :
    t.walk follow links way (before ++ after) = .error why := by
  have goesOn : ∀ rest : List String, rest ++ after ≠ [] :=
    fun rest ended => more (List.append_eq_nil_iff.mp ended).2
  fun_induction walk t true links way before with
  | case1 => cases failed
  | case2 links way piece rest skip ih =>
    rw [List.cons_append, walk, if_pos skip]
    exact ih failed
  | case3 links way rest name ih =>
    rw [List.cons_append, walk, if_neg name, if_pos rfl]
    exact ih failed
  | case4 links way piece rest name up long =>
    rw [List.cons_append, walk, if_neg name, if_neg up, if_pos long]
    exact failed
  | case5 links way piece rest name up long here =>
    rw [List.cons_append, walk, if_neg name, if_neg up, if_neg long, here]
    exact failed
  | case6 links way piece rest name up long id here ih =>
    rw [List.cons_append, walk, if_neg name, if_neg up, if_neg long, here]
    exact ih failed
  | case7 links way piece name up long id content mode here => cases failed
  | case8 links way piece rest name up long id content mode here inner =>
    rw [List.cons_append, walk, if_neg name, if_neg up, if_neg long, here]
    exact (if_neg (goesOn rest)).trans failed
  | case9 links way piece rest name up long id target here final => cases failed
  | case10 way piece rest name up long id target here last =>
    rw [List.cons_append, walk, if_neg name, if_neg up, if_neg long, here]
    simp only [goesOn rest, false_and, if_false]
    exact failed
  | case11 way piece rest name up long id target here final links ih =>
    rw [List.cons_append, walk, if_neg name, if_neg up, if_neg long, here]
    simp only [goesOn rest, false_and, if_false, ← List.append_assoc]
    exact ih failed

theorem walkBlank {follow : Bool} {blanks : List String} (blank : ∀ b ∈ blanks, Blank b) :
    t.walk follow links way blanks = .ok (.inside way) := by
  induction blanks with
  | nil => rw [walk]
  | cons b rest ih =>
    have skip : b = "" ∨ b = "." := blank b List.mem_cons_self
    rw [walk, if_pos skip]
    exact ih fun other later => blank other (List.mem_cons_of_mem _ later)

theorem haltedBlank {pieces blanks : List String} (blank : ∀ b ∈ blanks, Blank b)
    (halted : Halted (t.walk true links way (pieces ++ blanks))) :
    Halted (t.walk true links way pieces) := by
  by_cases none : blanks = []
  · rw [none, List.append_nil] at halted
    exact halted
  · cases walked : t.walk true links way pieces with
    | error why =>
      rw [walkError none walked] at halted
      exact halted
    | ok goal =>
      cases goal with
      | inside last =>
        rw [walkThrough none walked fun links => walkBlank blank] at halted
        rcases halted with ended | ⟨_, _, ended⟩ <;> cases ended
      | «at» loc e => exact .inr ⟨loc, e, rfl⟩

theorem haltedStops {result : Except Errno Goal} (halted : Halted result) :
    result ≠ .error .notFound ∧ ∀ way, result ≠ .ok (.inside way) := by
  rcases halted with rfl | ⟨_, _, rfl⟩
  · exact ⟨nofun, fun _ => nofun⟩
  · exact ⟨nofun, fun _ => nofun⟩

theorem splitLastBefore (pieces : List String) :
    ∃ after, pieces = (splitLast pieces).1 ++ after := by
  obtain ⟨k, reversed⟩ := dropWhileSplit pieces.reverse
  unfold splitLast
  split
  · exact ⟨pieces, rfl⟩
  · rename_i p before found
    rw [found] at reversed
    refine ⟨p :: List.replicate k "", ?_⟩
    simpa using congrArg List.reverse reversed

theorem slotMissing (filled : dir.isEmpty = false) (missing : t.slot dir = .error .notFound) :
    t.walk true linkLimit (t.base dir) dir.pieces = .error .notFound := by
  obtain ⟨after, pieces⟩ := splitLastBefore dir.pieces
  unfold slot at missing
  split at missing
  · rename_i why unfit
    cases missing
    unfold unfit? at unfit
    rw [filled] at unfit
    split at unfit <;> cases unfit
  · dsimp only at missing
    split at missing <;> cases missing
    rename_i walked
    rw [show dir.pieces = _ from pieces]
    by_cases none : after = []
    · rw [none, List.append_nil]
      exact walked
    · exact walkError none walked

theorem mkdirHalted (plain : dir.hasNul = false) (filled : dir.isEmpty = false)
    (halted : Halted (t.walk true linkLimit (t.base dir) dir.pieces)) :
    ∃ why, t.mkdir dir = .error why ∧ why ≠ .system .notFound := by
  obtain ⟨stopped, outside⟩ := haltedStops halted
  cases made : t.mkdir dir with
  | ok t' =>
    -- The new directory would have to be where the walk has ended already.
    obtain ⟨way, led, _⟩ := resolveMade made
    obtain ⟨loc, _, free, rfl⟩ := mkdirMade made
    unfold resolve at led
    split at led <;> try contradiction
    have same := walkGrows (growsAdd free .directory) stopped
    exact absurd (same.symm.trans led) (outside way)
  | error why =>
    refine ⟨why, rfl, ?_⟩
    intro missing
    subst missing
    cases place : t.slot dir with
    | error reason =>
      have same := (mkdirRefused plain place).symm.trans made
      cases same
      exact stopped (slotMissing filled place)
    | ok s =>
      obtain ⟨directory, last, slashed⟩ := s
      cases last with
      | name name =>
        have same := (mkdirNamed plain place).symm.trans made
        split at same
        · cases same
        · split at same <;> cases same
      | _ =>
        have same := (mkdirNameless plain place nofun).symm.trans made
        cases same

theorem walkUnentered {follow : Bool} {pieces : List String} {loc : Location} {e : Entry}
    (found : t.walk follow links way pieces = .ok (.at loc e)) : e.isDirectory = false := by
  fun_induction walk t follow links way pieces with
  | case2 links way piece rest skip ih => exact ih found
  | case3 links way rest name ih => exact ih found
  | case6 links way piece rest name up long id here ih => exact ih found
  | case7 links way piece name up long id content mode here => cases found; rfl
  | case9 links way piece rest name up long id target here last => cases found; rfl
  | case11 way piece rest name up long id target here last links ih => exact ih found
  | _ => cases found

theorem isDirectoryHalted (halted : Halted (t.walk true linkLimit (t.base dir) dir.pieces)) :
    t.isDirectory dir = false := by
  cases there : t.stat dir with
  | error why => simp only [isDirectory, there]
  | ok e =>
    obtain ⟨_, goal, led, same⟩ := statOk.mp there
    unfold resolve at led
    split at led <;> try contradiction
    simp only [isDirectory, there]
    cases goal with
    | inside last => exact absurd led ((haltedStops halted).2 last)
    | «at» loc other =>
      cases same
      exact walkUnentered led

end BuildProbe.Tree
