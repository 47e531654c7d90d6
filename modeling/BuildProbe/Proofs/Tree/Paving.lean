import BuildProbe.Proofs.Path.Leading
import BuildProbe.Proofs.Tree.Calls

/-!
A tree paved for a path: directories have been made where leading parts of the path lead, and
nothing else has happened. Making one more such directory keeps it so.
-/
namespace BuildProbe.Tree

structure Paved (before ground : Tree) (p : Path) : Prop where
  grows : before.Grows ground
  made : ∀ {loc e}, before.get? loc = none → ground.get? loc = some e →
    e.isDirectory = true ∧ ∃ part, part.Leads p ∧ ground.locate? part = some loc

theorem pavedRefl (t : Tree) (p : Path) : t.Paved t p := by
  refine ⟨growsRefl t, ?_⟩
  intro loc e free found
  rw [free] at found
  cases found

theorem pavedTrans {t t' t'' : Tree} {p : Path} (first : t.Paved t' p) (second : t'.Paved t'' p) :
    t.Paved t'' p := by
  refine ⟨growsTrans first.grows second.grows, ?_⟩
  intro loc e absent found
  cases known : t'.get? loc with
  | none => exact second.made known found
  | some old =>
    obtain ⟨directory, part, leads, place⟩ := first.made absent known
    have same : some old = some e := (second.grows.kept known).symm.trans found
    cases same
    exact ⟨directory, part, leads, locateGrows second.grows place⟩

theorem pavedMkdir {before t t' : Tree} {p part : Path} (paved : before.Paved t p)
    (leads : part = .here ∨ part.Leads p) (done : t.mkdir part = .ok t') : before.Paved t' p := by
  obtain ⟨loc, place, free, rfl⟩ := mkdirMade done
  have grown := growsAdd free .directory
  refine ⟨growsTrans paved.grows grown, ?_⟩
  intro other e absent found
  rw [getAdd] at found
  split at found
  · rename_i same
    cases found
    subst same
    rcases leads with rfl | leads
    · rw [mkdirHere] at done
      cases done
    · exact ⟨rfl, part, leads, locateGrows grown place⟩
  · obtain ⟨directory, way, leads, there⟩ := paved.made absent found
    exact ⟨directory, way, leads, locateGrows grown there⟩

theorem pavedAlike {before ground t : Tree} {p : Path} (paved : before.Paved ground p)
    (present : t.present = ground.present) (alike : ∀ loc, t.get? loc = ground.get? loc) :
    before.Paved t p := by
  have grown : ground.Grows t := ⟨present, fun found => (alike _).trans found⟩
  refine ⟨growsTrans paved.grows grown, ?_⟩
  intro loc e absent found
  obtain ⟨directory, way, leads, there⟩ := paved.made absent ((alike loc).symm.trans found)
  exact ⟨directory, way, leads, locateGrows grown there⟩

end BuildProbe.Tree
