import BuildProbe.Proofs.Artifact.Interruption
import Mathlib

/-!
A writing is atomic. Whenever it is looked at or cut off, the tree is the one before with
directories on the way to the path, and on top of that nothing, or one file beside the
destination that holds a leading part of the artifact, or the complete artifact in place of what
was directly at the path. So whoever looks directly at the path finds what was there or the whole
artifact. There is one exception: a path may lead through its own last name, as `a/../a` does,
and then that name is given to a directory on the way.
-/
namespace BuildProbe.Writing

open Text (Bytes)

inductive Seen (may : Writing → Prop) (d : Draft) (before now : Tree) (w : Writing) : Prop where
  | paved (ground : before.Paved now d.path)
  | drafted {ground file bytes mode} (drafted : Drafted d before ground now file bytes mode)
      (part : bytes <+: d.content)
  | placed {ground loc mode} (placed : Placed d before ground now loc mode)
      (bits : Bits may d.path ground mode) (ended : w = .done (.ok .written))

def MadeOnWay (d : Draft) (before now : Tree) (loc : Location) : Prop :=
  before.get? loc = none ∧ ∃ id, now.get? loc = some ⟨id, .directory⟩ ∧
    ∃ ground part, before.Paved ground d.path ∧ part.Leads d.path ∧ ground.locate? part = some loc

/- What is directly at the path: the entry from before, the complete artifact, or a directory on
the way to the path itself. Its location is the one that the path names at any time. -/
structure Atomic (may : Writing → Prop) (d : Draft) (before now : Tree) (w : Writing) : Prop where
  destination : ∀ seen v loc, Reaches may d before seen v → seen.locate? d.path = some loc →
    now.get? loc = before.get? loc ∨
    (∃ ground mode, Placed d before ground now loc mode ∧ Bits may d.path ground mode) ∨
    MadeOnWay d before now loc
  elsewhere : Seen may d before now w

theorem standsSeen {may d before now} {w : Writing} (stands : Stands may d before now w) :
    Seen may d before now w := by
  cases w with
  | comparing =>
    have same : now = before := stands
    exact .paved (same ▸ before.pavedRefl d.path)
  | climbing dir missing => exact .paved stands.1
  | confirming dir missing why => exact .paved stands.1
  | descending missing => exact .paved stands.1
  | creating => exact .paved stands
  | filling file chunks =>
    obtain ⟨ground, bytes, drafted, whole⟩ := stands
    exact .drafted drafted (whole ▸ List.prefix_append _ _)
  | syncing file => exact .drafted stands.choose_spec (List.prefix_refl _)
  | examining file => exact .drafted stands.choose_spec (List.prefix_refl _)
  | permitting file mode => exact .drafted stands.choose_spec.1 (List.prefix_refl _)
  | replacing file =>
    obtain ⟨ground, mode, drafted, _⟩ := stands
    exact .drafted drafted (List.prefix_refl _)
  | discarding file why =>
    obtain ⟨ground, bytes, mode, drafted, part⟩ := stands
    exact .drafted drafted part
  | done result =>
    cases result with
    | error failure =>
      rcases stands.2 with paved | ⟨_, ground, file, bytes, mode, drafted, part⟩
      · exact .paved paved
      · exact .drafted drafted part
    | ok outcome =>
      cases outcome with
      | unchanged => exact .paved (stands.1 ▸ before.pavedRefl d.path)
      | written =>
        obtain ⟨ground, loc, mode, placed, bits⟩ := stands
        exact .placed placed bits rfl

theorem pavedEntry {d : Draft} {before ground now : Tree} {loc : Location}
    (paved : before.Paved ground d.path) (same : now.get? loc = ground.get? loc) :
    now.get? loc = before.get? loc ∨ MadeOnWay d before now loc := by
  cases found : ground.get? loc with
  | none =>
    left
    cases old : before.get? loc with
    | none => exact same.trans found
    | some e =>
      rw [paved.grows.kept old] at found
      cases found
  | some e =>
    cases old : before.get? loc with
    | some e' => exact .inl (same.trans (paved.grows.kept old))
    | none =>
      obtain ⟨directory, part, leads, there⟩ := paved.made old found
      obtain ⟨id, node⟩ := e
      cases node with
      | directory => exact .inr ⟨old, id, same.trans found, ground, part, paved, leads, there⟩
      | _ => cases directory

theorem seenEntry {may d before now w} (seen : Seen may d before now w) {loc : Location}
    (apart : loc.name ≠ d.name) :
    now.get? loc = before.get? loc ∨
    (∃ ground mode, Placed d before ground now loc mode ∧ Bits may d.path ground mode) ∨
    MadeOnWay d before now loc := by
  cases seen with
  | paved ground =>
    rcases pavedEntry ground rfl with kept | made
    · exact .inl kept
    · exact .inr (.inr made)
  | @drafted ground file bytes mode drafted part =>
    have other : loc ≠ file := fun own => apart (own ▸ drafted.named)
    rcases pavedEntry drafted.paved (drafted.others other) with kept | made
    · exact .inl kept
    · exact .inr (.inr made)
  | @placed ground dest mode placed bits ended =>
    by_cases own : loc = dest
    · exact .inr (.inl ⟨ground, mode, own ▸ placed, bits⟩)
    · rcases pavedEntry placed.paved (placed.others own) with kept | made
      · exact .inl kept
      · exact .inr (.inr made)

theorem reachedAtomic {may : Writing → Prop} {d : Draft} {before now : Tree} {w : Writing}
    (apart : d.Apart) (reached : Reaches may d before now w) :
    Atomic may d before now w := by
  have seen := standsSeen (reachedStands apart reached)
  refine ⟨?_, seen⟩
  intro earlier v loc _ place
  obtain ⟨slashed, here⟩ := Tree.locateSlot place
  exact seenEntry seen fun own => apart (own ▸ Tree.slotName here)

def after (d : Draft) (before : Tree) : Nat → Tree × Writing
  | 0 => (before, .comparing)
  | n + 1 => (after d before n).2.step d (after d before n).1

theorem afterReached (may : Writing → Prop) (d : Draft) (before : Tree) (n : Nat) :
    Reaches may d before (after d before n).1 (after d before n).2 := by
  induction n with
  | zero => exact .start
  | succ n ih => exact ih.step

def halves : Draft := ⟨.ofText "f", [[0x61], [0x62]], ".tmp", "/"⟩

def older : Tree := Tree.add ⟨∅, []⟩ ⟨0, "f"⟩ (.file (.data [0x6F]) 0o644)

theorem atomicHalfway :
    halves.Apart ∧ (after halves older 6).2 = .filling ⟨0, ".tmp"⟩ [[0x62]] ∧
      (after halves older 6).1.get? ⟨0, "f"⟩ = some ⟨1, .file (.data [0x6F]) 0o644⟩ ∧
      Atomic (fun _ => True) halves older (after halves older 6).1 (after halves older 6).2 := by
  have apart : halves.Apart := by decide +kernel
  exact ⟨apart, by cbv, by cbv, reachedAtomic apart (afterReached (fun _ => True) halves older 6)⟩

def roundabout : Draft := ⟨.ofText "a/../a", [[0x78]], ".tmp", "/"⟩

theorem placeTaken :
    ∃ now reason,
      Reaches Disk.sound.Refuses roundabout ⟨∅, []⟩ now (.done (.error ⟨"a/../a", reason⟩)) ∧
      now.locate? roundabout.path = some ⟨0, "a"⟩ ∧
      now.get? ⟨0, "a"⟩ ≠ Tree.get? ⟨∅, []⟩ ⟨0, "a"⟩ ∧
      ∀ id mode, now.get? ⟨0, "a"⟩ ≠ some ⟨id, .file (.data roundabout.content) mode⟩ := by
  have failed : (finish roundabout .sound ⟨∅, []⟩ .comparing).2 =
      .error ⟨"a/../a", "Is a directory (os error 21)"⟩ := by cbv
  have made : (finish roundabout .sound ⟨∅, []⟩ .comparing).1.get? ⟨0, "a"⟩ = some ⟨1, .directory⟩ := by
    cbv
  refine ⟨_, _, finishReached .start (Prod.ext rfl failed), by cbv, ?_, ?_⟩
  · intro same
    cases made.symm.trans same
  · intro id mode file
    cases made.symm.trans file

end BuildProbe.Writing
