import BuildProbe.Proofs.Artifact.Replacement

/-!
What a failed write leaves behind. Whatever made it fail, and however far it had got by then, every
entry is where it was and what it was, and the file of its own is gone. All that can be new are
directories, each of them what a leading part of the path's directory leads to, and for a path
without text there are none.
-/
namespace BuildProbe

namespace Tree

/- The tree after a failed write to a path. -/
structure Harmless (before after : Tree) (p : Path) : Prop where
  kept : before.Grows after
  same : ∀ {e}, before.lstat p = .ok e → after.lstat p = .ok e
  made : ∀ {loc e}, before.get? loc = none → after.get? loc = some e →
    e.isDirectory = true ∧ ∃ part way, part.LeadsTo p.directory ∧
      after.resolve true part = .ok (.inside way) ∧ standing way = e.id
  bare : p.isEmpty = true → after = before

variable {t t' : Tree} {p : Path}

theorem entryGrows (grows : t.Grows t') {follow : Bool} {e : Entry}
    (there : t.entry follow p = .ok e) : t'.entry follow p = .ok e := by
  unfold entry at there ⊢
  rw [resolveGrows grows]
  · exact there
  · intro missing
    rw [missing] at there
    cases there

theorem lstatGrows (grows : t.Grows t') {e : Entry} (there : t.lstat p = .ok e) :
    t'.lstat p = .ok e := by
  obtain ⟨plain, found⟩ := withPathOk.mp there
  exact withPathOk.mpr ⟨plain, entryGrows grows found⟩

end Tree

namespace Draft

variable {d : Draft} {disk : Disk} {t after : Tree} {failure : WriteFailure}

theorem writeBare (bare : d.path.isEmpty = true) (disk : Disk) (t : Tree) :
    d.write disk t = (t, .error ⟨d.path.text, "empty output path"⟩) := by
  have refused : Writing.comparing.next d disk t =
      (t, .done (.error ⟨d.path.text, "empty output path"⟩)) := by
    unfold Writing.next
    split
    · simp only [Writing.refused, bare, if_true, Writing.failed]
    · simp only [Writing.step, bare, if_true, Writing.failed]
  rw [write, Writing.finish]
  simp only [Writing.result?, refused]
  exact Writing.finishDone ..

theorem writeHarmless (apart : d.Apart) (done : d.write disk t = (after, .error failure)) :
    failure.path = d.path.text ∧ t.Harmless after d.path := by
  obtain ⟨roads, _⟩ := Writing.reachedCharted apart (Writing.finishReached .start done)
  cases writePersisted apart done with
  | failed paved =>
    refine ⟨rfl, paved.grows, Tree.lstatGrows paved.grows, ?_, ?_⟩
    · intro loc e absent found
      have directory := (paved.made absent found).1
      exact ⟨directory, roads absent found directory⟩
    · intro bare
      rw [writeBare bare] at done
      exact (congrArg Prod.fst done).symm

end Draft

def Disk.full : Disk where
  refuses
    | .filling .. => some (.other 28 "No space left on device")
    | _ => none
  clears _ _ := rfl

theorem slashedHarmless : ∃ after after',
    (Tree.veiled.persist .standard .sound (.ofText "n/f/") [⟨"x"⟩] =
        (after, .error ⟨"n/f/", "Not a directory (os error 20)"⟩) ∧
      after.get? ⟨Tree.root, "n"⟩ = some ⟨3, .directory⟩ ∧ after.names 3 = [] ∧
      Tree.veiled.Harmless after (.ofText "n/f/")) ∧
    Tree.veiled.persist .standard .full (.ofText "n/f") [⟨"x"⟩] =
        (after', .error ⟨"n/f", "No space left on device (os error 28)"⟩) ∧
      after'.get? ⟨Tree.root, "n"⟩ = some ⟨3, .directory⟩ ∧ after'.names 3 = [] ∧
      Tree.veiled.Harmless after' (.ofText "n/f") := by
  have failed : (Tree.veiled.persist .standard .sound (.ofText "n/f/") [⟨"x"⟩]).2 =
      .error ⟨"n/f/", "Not a directory (os error 20)"⟩ := by cbv
  have made : (Tree.veiled.persist .standard .sound (.ofText "n/f/") [⟨"x"⟩]).1.get?
      ⟨Tree.root, "n"⟩ = some ⟨3, .directory⟩ := by cbv
  have empty : (Tree.veiled.persist .standard .sound (.ofText "n/f/") [⟨"x"⟩]).1.names 3 = [] := by
    cbv
  have failed' : (Tree.veiled.persist .standard .full (.ofText "n/f") [⟨"x"⟩]).2 =
      .error ⟨"n/f", "No space left on device (os error 28)"⟩ := by cbv
  have made' : (Tree.veiled.persist .standard .full (.ofText "n/f") [⟨"x"⟩]).1.get?
      ⟨Tree.root, "n"⟩ = some ⟨3, .directory⟩ := by cbv
  have empty' : (Tree.veiled.persist .standard .full (.ofText "n/f") [⟨"x"⟩]).1.names 3 = [] := by
    cbv
  have apart (p : Path) : (Tree.veiled.draft .standard p [⟨"x"⟩]).Apart :=
    (Tree.veiled.draftRenders ..).apart
  exact ⟨_, _,
    ⟨Prod.ext rfl failed, made, empty, (Draft.writeHarmless (apart _) (Prod.ext rfl failed)).2⟩,
    Prod.ext rfl failed', made', empty', (Draft.writeHarmless (apart _) (Prod.ext rfl failed')).2⟩

end BuildProbe
