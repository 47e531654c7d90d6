import BuildProbe.Proofs.Artifact.Interruption

/-!
What persisting comes to when nobody interrupts it, whatever the system refuses to it. An artifact
that is unchanged was there before, in a tree that stays as it is. One that is written is in the
place of the file or link directly at its path, everything else is the tree from before with
directories on the way, and whoever reads the path reads the artifact. There is one exception: a
path may lead to its place through the link in that very place, as `l/../l` does, and then it leads
nowhere once the link is replaced. After a failure nothing is added but directories on the way.
-/
namespace BuildProbe

open Text (Bytes)

namespace Tree

/- The path leads to its place, once it is paved, only through the link in that place. -/
def Crossed (before : Tree) (p : Path) : Prop :=
  ∃ ground loc id target, before.Paved ground p ∧ ground.locate? p = some loc ∧
    ground.get? loc = some ⟨id, .link target⟩ ∧ (ground.erase loc).locate? p = none

inductive Persisted (disk : Disk) (before after : Tree) (p : Path) (bytes : Bytes) :
    Except WriteFailure Outcome → Prop where
  | unchanged (same : after = before) (read : before.read p = .ok bytes) :
      Persisted disk before after p bytes (.ok .unchanged)
  | written {ground loc id mode} (paved : before.Paved ground p)
      (place : ground.locate? p = some loc)
      (complete : after.get? loc = some ⟨id, .file (.data bytes) mode⟩)
      (bits : Writing.Bits disk.Refuses p ground mode)
      (others : ∀ {other}, other ≠ loc → after.get? other = ground.get? other)
      (read : after.read p = .ok bytes ∨
        after.read p = .error (.system .notADirectory) ∧ before.Crossed p) :
      Persisted disk before after p bytes (.ok .written)
  | failed {reason} (paved : before.Paved after p) :
      Persisted disk before after p bytes (.error ⟨p.text, reason⟩)

theorem Persisted.reads {disk : Disk} {before after : Tree} {p : Path} {bytes : Bytes}
    {outcome : Outcome} (persisted : Persisted disk before after p bytes (.ok outcome)) :
    after.read p = .ok bytes ∨
      after.read p = .error (.system .notADirectory) ∧ before.Crossed p := by
  cases persisted with
  | unchanged same read => exact .inl (same ▸ read)
  | written paved place complete bits others read => exact read

end Tree

structure Draft.Renders (d : Draft) (p : Path) (flags : List Flag) : Prop where
  path : d.path = p
  content : d.content = Text.encode (Artifact.render flags)
  apart : d.Apart

theorem Draft.nameApart {d : Draft} (outside : d.name ∉ d.path.pieces) : d.Apart := by
  intro last
  obtain ⟨_, k, pieces⟩ := Tree.splitLastName last
  refine outside ?_
  rw [pieces]
  exact List.mem_append_right _ List.mem_cons_self

theorem Tree.draftRenders (t : Tree) (site : Site) (p : Path) (flags : List Flag) :
    (t.draft site p flags).Renders p flags :=
  ⟨rfl, List.append_nil _, Draft.nameApart fun member =>
    site.free (p.pieces ++ t.words) (List.mem_append_left _ member)⟩

namespace Writing

theorem placedSlot {d before ground now loc mode} (placed : Placed d before ground now loc mode) :
    now.slot d.path = .ok ⟨loc.directory, .name loc.name, false⟩ ∨
      now.slot d.path = .error .notADirectory := by
  refine Tree.slotBlocked placed.present ?_ placed.place
  intro other e found passable
  by_cases own : other = loc
  · exact .inr ⟨_, _, _, own ▸ placed.complete⟩
  · exact .inl ((placed.others own).trans found)

theorem placedAdds {d before ground now loc mode} (placed : Placed d before ground now loc mode) :
    (ground.erase loc).Grows now := by
  refine ⟨placed.present, ?_⟩
  intro other e found
  rw [Tree.getErase] at found
  split at found
  · cases found
  · rename_i apart
    exact (placed.others apart).trans found

theorem placedSolid {d before ground now loc mode} (placed : Placed d before ground now loc mode)
    (solid : ∀ e, ground.get? loc = some e → e.passable = false) :
    now.slot d.path = .ok ⟨loc.directory, .name loc.name, false⟩ := by
  refine Tree.slotBack ⟨placed.present, ?_⟩ placed.place
  intro other e found passable
  have apart : other ≠ loc := by
    intro own
    rw [solid e (own ▸ found)] at passable
    cases passable
  exact (placed.others apart).trans found

theorem placedCrossed {d before ground now loc mode} (placed : Placed d before ground now loc mode)
    (halted : now.slot d.path = .error .notADirectory) : before.Crossed d.path := by
  have passed : ¬∀ e, ground.get? loc = some e → e.passable = false := by
    intro solid
    rw [placedSolid placed solid] at halted
    cases halted
  have around : (ground.erase loc).locate? d.path = none := by
    cases around : (ground.erase loc).locate? d.path with
    | none => rfl
    | some other =>
      obtain ⟨slashed, still⟩ := Tree.locateSlot (Tree.locateGrows (placedAdds placed) around)
      rw [halted] at still
      cases still
  -- Of what can be replaced, only a link lets a walk pass.
  cases old : ground.get? loc with
  | none => exact absurd (by simp [old]) passed
  | some e =>
    obtain ⟨id, node⟩ := e
    cases node with
    | directory => cases placed.replaceable _ old
    | file content bits => exact absurd (by simp [old, Entry.passable]) passed
    | link target =>
      exact ⟨ground, loc, id, target, placed.paved, Tree.slotLocate placed.place, old, around⟩

theorem placedRead {d before ground now loc mode} (placed : Placed d before ground now loc mode) :
    now.read d.path = .ok d.content ∨
      now.read d.path = .error (.system .notADirectory) ∧ before.Crossed d.path := by
  rcases placedSlot placed with place | halted
  · exact .inl (Tree.readPlaced place placed.short placed.plain placed.complete)
  · exact .inr ⟨Tree.readHalted (Tree.slotName placed.place) placed.plain halted,
      placedCrossed placed halted⟩

end Writing

theorem Draft.writePersisted {d : Draft} (apart : d.Apart) {disk : Disk} {t after : Tree}
    {result : Except WriteFailure Outcome} (done : d.write disk t = (after, result)) :
    t.Persisted disk after d.path d.content result := by
  have stands := Writing.reachedStands apart (Writing.finishReached .start done)
  cases result with
  | error failure =>
    obtain ⟨path, reason⟩ := failure
    obtain ⟨same, paved | ⟨left, _⟩⟩ := stands
    · cases same
      exact .failed paved
    · exact absurd left disk.discards
  | ok outcome =>
    cases outcome with
    | unchanged =>
      obtain ⟨same, read⟩ := stands
      exact .unchanged same read
    | written =>
      obtain ⟨ground, loc, mode, placed, bits⟩ := stands
      exact .written placed.paved (Tree.slotLocate placed.place) placed.complete bits placed.others
        (Writing.placedRead placed)

theorem Tree.persistPersisted {t after : Tree} {site : Site} {disk : Disk} {p : Path}
    {flags : List Flag} {result : Except WriteFailure Outcome}
    (done : t.persist site disk p flags = (after, result)) :
    t.Persisted disk after p (Text.encode (Artifact.render flags)) result := by
  have renders := t.draftRenders site p flags
  have persisted := Draft.writePersisted renders.apart done
  rw [renders.content] at persisted
  exact persisted

end BuildProbe
