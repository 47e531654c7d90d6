import BuildProbe.Artifact.Writing
import BuildProbe.Proofs.Tree.Paving

/-!
Where the writing of a draft stands, at each of its steps. The tree is the one before with some
directories made on the way to the destination. Once there is a file beside the destination it
is all that is added to that, and once the destination is replaced the artifact is there as a
whole, and the file beside it is gone. A step that the system refuses for reasons of its own
leaves the tree alone; only when removing the file beside the destination is refused does that
file stay.
-/
namespace BuildProbe

open Text (Bytes)

def Draft.Apart (d : Draft) : Prop := (Tree.splitLast d.path.pieces).2 ≠ .name d.name
instance (d : Draft) : Decidable d.Apart := by
  unfold Draft.Apart; infer_instance

namespace Writing

structure Drafted (d : Draft) (before ground now : Tree) (file : Location) (bytes : Bytes)
    (mode : Nat) : Prop where
  paved : before.Paved ground d.path
  free : ground.get? file = none
  beside : ground.enter d.path.directory = .ok file.directory
  named : file.name = d.name
  draft : now.get? file = some ⟨ground.freshId, .file (.data bytes) mode⟩
  others : ∀ {other}, other ≠ file → now.get? other = ground.get? other
  present : now.present = ground.present

structure Placed (d : Draft) (before ground now : Tree) (loc : Location) (mode : Nat) : Prop where
  paved : before.Paved ground d.path
  place : ground.slot d.path = .ok ⟨loc.directory, .name loc.name, false⟩
  short : Tree.nameTooLong loc.name = false
  plain : d.path.hasNul = false
  replaceable : ∀ old, ground.get? loc = some old → old.isDirectory = false
  complete : now.get? loc = some ⟨ground.freshId, .file (.data d.content) mode⟩
  others : ∀ {other}, other ≠ loc → now.get? other = ground.get? other
  present : now.present = ground.present

/- The bits that the artifact gets: those of the file that it replaces, as far as there is one
and the system tells. -/
def Bits (may : Writing → Prop) (p : Path) (ground : Tree) (mode : Nat) : Prop :=
  mode = (ground.fileMode? p).getD Tree.draftMode ∨
    (∃ file, may (.examining file)) ∧ mode = Tree.draftMode

def OnWay (d : Draft) (part : Path) : Prop := part = .here ∨ part.Leads d.path

/- What is true of the tree when the writing has come to a state. In which states the system may
refuse what it usually does is `may`. -/
def Stands (may : Writing → Prop) (d : Draft) (before now : Tree) : Writing → Prop
  | .comparing => now = before
  | .climbing dir missing => before.Paved now d.path ∧ ∀ part ∈ dir :: missing, OnWay d part
  | .confirming _ missing _ => before.Paved now d.path ∧ ∀ part ∈ missing, OnWay d part
  | .descending missing => before.Paved now d.path ∧ ∀ part ∈ missing, OnWay d part
  | .creating => before.Paved now d.path
  | .filling file chunks => ∃ ground bytes,
      Drafted d before ground now file bytes Tree.draftMode ∧ bytes ++ chunks.flatten = d.content
  | .syncing file => ∃ ground, Drafted d before ground now file d.content Tree.draftMode
  | .examining file => ∃ ground, Drafted d before ground now file d.content Tree.draftMode
  | .permitting file mode => ∃ ground,
      Drafted d before ground now file d.content Tree.draftMode ∧ Bits may d.path ground mode
  | .replacing file => ∃ ground mode,
      Drafted d before ground now file d.content mode ∧ Bits may d.path ground mode
  | .discarding file _ => ∃ ground bytes mode,
      Drafted d before ground now file bytes mode ∧ bytes <+: d.content
  | .done (.ok .unchanged) => now = before ∧ before.read d.path = .ok d.content
  | .done (.ok .written) => ∃ ground loc mode,
      Placed d before ground now loc mode ∧ Bits may d.path ground mode
  | .done (.error failure) => failure.path = d.path.text ∧ (before.Paved now d.path ∨
      (∃ file why, may (.discarding file why)) ∧ ∃ ground file bytes mode,
        Drafted d before ground now file bytes mode ∧ bytes <+: d.content)

theorem draftedRoutes {d before ground now file bytes mode}
    (drafted : Drafted d before ground now file bytes mode) : ground.Routes now := by
  refine ⟨drafted.present.symm, ?_⟩
  intro loc e found passable
  by_cases own : loc = file
  · subst own
    rw [drafted.draft] at found
    cases found
    cases passable
  · exact (drafted.others own).symm.trans found

theorem draftedGrows {d before ground now file bytes mode}
    (drafted : Drafted d before ground now file bytes mode) : ground.Grows now := by
  refine ⟨drafted.present, ?_⟩
  intro loc e found
  have other : loc ≠ file := by
    intro own
    rw [own, drafted.free] at found
    cases found
  exact (drafted.others other).trans found

theorem draftedMode {d before ground now file bytes}
    (drafted : Drafted d before ground now file bytes Tree.draftMode) :
    (now.fileMode? d.path).getD Tree.draftMode = (ground.fileMode? d.path).getD Tree.draftMode := by
  cases old : ground.fileMode? d.path with
  | some mode => rw [Tree.fileModeGrows (draftedGrows drafted) old]
  | none =>
    cases new : now.fileMode? d.path with
    | none => rfl
    | some mode =>
      obtain ⟨id, content, there⟩ := Tree.fileModeSome.mp new
      obtain ⟨plain, goal, led, same⟩ := Tree.statOk.mp there
      cases goal with
      | inside way => cases same
      | «at» loc e =>
        have found := Tree.resolveAt led
        by_cases own : loc = file
        · rw [own, drafted.draft] at found
          cases found
          cases same
          rfl
        · rw [drafted.others own] at found
          have back := Tree.resolveBack (draftedRoutes drafted) led (by rintro _ _ ⟨⟩; exact found)
          have known := Tree.fileModeSome.mpr ⟨id, content, Tree.statOk.mpr ⟨plain, _, back, same⟩⟩
          rw [old] at known
          cases known

theorem draftedErase {d before ground now file bytes mode}
    (drafted : Drafted d before ground now file bytes mode) :
    before.Paved (now.erase file) d.path := by
  refine Tree.pavedAlike drafted.paved drafted.present ?_
  intro loc
  rw [Tree.getErase]
  split
  · rename_i own
    rw [own, drafted.free]
  · rename_i other
    exact drafted.others other

theorem draftedInsert {d before ground now file bytes mode}
    (drafted : Drafted d before ground now file bytes mode) (more : Bytes) (bits : Nat) :
    Drafted d before ground (now.insert file ⟨ground.freshId, .file (.data more) bits⟩) file
      more bits := by
  refine ⟨drafted.paved, drafted.free, drafted.beside, drafted.named, ?_, ?_, drafted.present⟩
  · rw [Tree.getInsert, if_pos rfl]
  · intro other apart
    rw [Tree.getInsert, if_neg apart]
    exact drafted.others apart

theorem draftedRename {d before ground now file mode} {t : Tree} (apart : d.Apart)
    (drafted : Drafted d before ground now file d.content mode)
    (done : now.rename file d.path = .ok t) : ∃ loc, Placed d before ground t loc mode := by
  obtain ⟨plain, loc, e, here, short, replaceable, moved, rfl⟩ := Tree.renameMoved done
  have place := Tree.slotBack (draftedRoutes drafted) here
  have other : loc ≠ file := by
    intro own
    rw [own, drafted.named] at here
    exact apart (Tree.slotName here)
  have same := drafted.draft.symm.trans moved
  cases same
  refine ⟨loc, drafted.paved, place, short, plain, ?_, ?_, ?_, drafted.present⟩
  · intro old found
    exact replaceable old ((drafted.others other).trans found)
  · rw [Tree.getInsert, if_pos rfl]
  · intro elsewhere different
    rw [Tree.getInsert, if_neg different, Tree.getErase]
    split
    · rename_i own
      rw [own, drafted.free]
    · rename_i far
      exact drafted.others far

end Writing
end BuildProbe
