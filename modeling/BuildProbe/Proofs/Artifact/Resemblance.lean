import BuildProbe.Proofs.Artifact.Fate
import BuildProbe.Proofs.Tree.Resemblance

/-!
Persisting in trees that differ in what some files hold. Of those files, only the one at the
destination is ever read. If it reads the same, every step is the same in both trees, and so is
the file beside the destination: what is put into place is the same, or the same is refused.
-/
namespace BuildProbe

open Text (Bytes)

variable {differ : Content → Content → Prop} {t t' : Tree}

namespace Tree

theorem wordsResemble (like : t.Resembles differ t') : t.words = t'.words := by
  refine collectResembles like fun entries => ?_
  induction entries with
  | nil => rfl
  | @cons x x' rest rest' first later ih =>
    obtain ⟨name, e⟩ := x
    obtain ⟨name', e'⟩ := x'
    obtain ⟨rfl, entry⟩ := first
    refine congrArg₂ (· ++ ·) ?_ ih
    cases entry <;> rfl

theorem draftResembles (like : t.Resembles differ t') (site : Site) (p : Path)
    (flags : List Flag) : t.draft site p flags = t'.draft site p flags := by
  simp only [draft, wordsResemble like]

end Tree

namespace Writing

def compares : Writing → Bool
  | .comparing => true
  | _ => false

/- Two writings in the same state. The file of their own is the same one, and what they may still
compare is the same. -/
structure Parallel (differ : Content → Content → Prop) (d : Draft) (w : Writing) (t t' : Tree) :
    Prop where
  trees : t.Resembles differ t'
  own : ∀ file, w.file? = some file → t.get? file = t'.get? file
  compared : w.compares = true → t.read d.path = t'.read d.path

variable {d : Draft} {w : Writing}

theorem parallelPlain (trees : t.Resembles differ t') (plain : w.file? = none)
    (later : w.compares = false) : Parallel differ d w t t' := by
  refine ⟨trees, ?_, ?_⟩
  · intro file own
    cases plain.symm.trans own
  · intro early
    cases later.symm.trans early

theorem parallelOwn (trees : t.Resembles differ t') {file : Location}
    (same : t.get? file = t'.get? file) (filed : w.file? = some file) :
    Parallel differ d w t t' := by
  refine ⟨trees, ?_, ?_⟩
  · intro other own
    cases filed.symm.trans own
    exact same
  · intro early
    cases w with
    | comparing => cases filed
    | _ => cases early

theorem stepParallel (parallel : Parallel differ d w t t') :
    (w.step d t).2 = (w.step d t').2 ∧
      Parallel differ d (w.step d t).2 (w.step d t).1 (w.step d t').1 := by
  obtain ⟨trees, own, compared⟩ := parallel
  -- Only the first step reads the destination. Every other call is refused or done in both trees.
  cases w with
  | comparing =>
    simp only [step, compared rfl]
    split
    · exact ⟨rfl, parallelPlain trees rfl rfl⟩
    · split
      · split
        · exact ⟨rfl, parallelPlain trees rfl rfl⟩
        · exact ⟨rfl, parallelPlain trees rfl rfl⟩
      · exact ⟨rfl, parallelPlain trees rfl rfl⟩
  | climbing dir missing =>
    have made := Tree.mkdirResembles trees dir
    simp only [step]
    generalize t.mkdir dir = call at made
    generalize t'.mkdir dir = call' at made
    split
    · exact ⟨rfl, parallelPlain trees rfl rfl⟩
    · cases made with
      | ok grown => exact ⟨rfl, parallelPlain grown rfl rfl⟩
      | error why =>
        dsimp only
        split
        · split
          · exact ⟨rfl, parallelPlain trees rfl rfl⟩
          · exact ⟨rfl, parallelPlain trees rfl rfl⟩
        · exact ⟨rfl, parallelPlain trees rfl rfl⟩
  | confirming dir missing why =>
    simp only [step, Tree.isDirectoryResembles trees]
    split
    · exact ⟨rfl, parallelPlain trees rfl rfl⟩
    · exact ⟨rfl, parallelPlain trees rfl rfl⟩
  | descending missing =>
    cases missing with
    | nil => exact ⟨rfl, parallelPlain trees rfl rfl⟩
    | cons dir missing =>
      have made := Tree.mkdirResembles trees dir
      simp only [step]
      generalize t.mkdir dir = call at made
      generalize t'.mkdir dir = call' at made
      cases made with
      | ok grown => exact ⟨rfl, parallelPlain grown rfl rfl⟩
      | error why => exact ⟨rfl, parallelPlain trees rfl rfl⟩
  | creating =>
    have made := Tree.createResembles trees d.path.directory d.name
    simp only [step]
    generalize t.create d.path.directory d.name = call at made
    generalize t'.create d.path.directory d.name = call' at made
    cases d.overlong with
    | true => exact ⟨rfl, parallelPlain trees rfl rfl⟩
    | false =>
      cases made with
      | @ok made made' same =>
        obtain ⟨file, grown⟩ := made
        obtain ⟨file', grown'⟩ := made'
        obtain ⟨rfl, grown, own⟩ := same
        exact ⟨rfl, parallelOwn grown own rfl⟩
      | error why => exact ⟨rfl, parallelPlain trees rfl rfl⟩
  | filling file chunks =>
    cases chunks with
    | nil => exact ⟨rfl, parallelOwn trees (own file rfl) rfl⟩
    | cons chunk chunks =>
      obtain ⟨filled, same⟩ := Tree.appendResembles trees (own file rfl) chunk
      exact ⟨rfl, parallelOwn filled same rfl⟩
  | syncing file => exact ⟨rfl, parallelOwn trees (own file rfl) rfl⟩
  | examining file =>
    simp only [step, Tree.fileModeResembles trees]
    split
    · exact ⟨rfl, parallelOwn trees (own file rfl) rfl⟩
    · exact ⟨rfl, parallelOwn trees (own file rfl) rfl⟩
  | permitting file mode =>
    obtain ⟨permitted, same⟩ := Tree.setModeResembles trees (own file rfl) mode
    exact ⟨rfl, parallelOwn permitted same rfl⟩
  | replacing file =>
    have moved := Tree.renameResembles trees file d.path
    simp only [step]
    generalize t.rename file d.path = call at moved
    generalize t'.rename file d.path = call' at moved
    cases moved with
    | ok placed => exact ⟨rfl, parallelPlain placed rfl rfl⟩
    | error why => exact ⟨rfl, parallelOwn trees (own file rfl) rfl⟩
  | discarding file why =>
    exact ⟨rfl, parallelPlain (Tree.eraseResembles trees file) rfl rfl⟩
  | done result => exact ⟨rfl, parallelPlain trees rfl rfl⟩

theorem refusedParallel (parallel : Parallel differ d w t t') (why : Errno) :
    Parallel differ d (w.refused d why) t t' := by
  obtain ⟨trees, own, compared⟩ := parallel
  cases w with
  | comparing =>
    simp only [refused]
    split
    · exact parallelPlain trees rfl rfl
    · exact parallelPlain trees rfl rfl
  | descending missing => cases missing <;> exact parallelPlain trees rfl rfl
  | filling file chunks => exact parallelOwn trees (own file rfl) rfl
  | syncing file => exact parallelOwn trees (own file rfl) rfl
  | examining file => exact parallelOwn trees (own file rfl) rfl
  | permitting file mode => exact parallelOwn trees (own file rfl) rfl
  | replacing file => exact parallelOwn trees (own file rfl) rfl
  | _ => exact parallelPlain trees rfl rfl

theorem nextParallel (parallel : Parallel differ d w t t') (disk : Disk) :
    (w.next d disk t).2 = (w.next d disk t').2 ∧
      Parallel differ d (w.next d disk t).2 (w.next d disk t).1 (w.next d disk t').1 := by
  unfold next
  cases disk.refuses w with
  | some why => exact ⟨rfl, refusedParallel parallel why⟩
  | none => exact stepParallel parallel

theorem finishParallel (parallel : Parallel differ d w t t') (disk : Disk) :
    (finish d disk t w).2 = (finish d disk t' w).2 ∧
      (finish d disk t w).1.Resembles differ (finish d disk t' w).1 := by
  fun_induction finish d disk t w generalizing t' with
  | case1 t w result ended =>
    rw [finish]
    split
    · rename_i other ended'
      cases ended.symm.trans ended'
      exact ⟨rfl, parallel.trees⟩
    · rename_i going
      cases ended.symm.trans going
  | case2 t w going ih =>
    rw [finish.eq_def d disk t' w]
    split
    · rename_i result ended
      cases going.symm.trans ended
    · obtain ⟨same, next⟩ := nextParallel parallel disk
      rw [← same]
      exact ih next

end Writing

theorem Tree.persistResembles (like : t.Resembles differ t') {p : Path}
    (read : t.read p = t'.read p) (site : Site) (disk : Disk) (flags : List Flag) :
    (t.persist site disk p flags).2 = (t'.persist site disk p flags).2 ∧
      (t.persist site disk p flags).1.Resembles differ (t'.persist site disk p flags).1 := by
  unfold persist
  rw [draftResembles like]
  refine Writing.finishParallel ⟨like, ?_, fun _ => read⟩ disk
  intro file own
  cases own

end BuildProbe
