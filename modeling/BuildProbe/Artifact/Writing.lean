import BuildProbe.Artifact
import BuildProbe.Failure
import BuildProbe.Text.Quoted
import BuildProbe.Tree.Calls
/-!
Persisting an artifact in a tree. A destination that holds the same bytes already is left alone.
Else the missing directories are made, the bytes go to a file of their own beside the
destination, that file takes over the permission bits of what it replaces, and is moved into
place. A step is one call: it is done, or the system refuses it and the tree stays as it is. The
entry at the destination changes in one step only. After a failure the file of its own is removed,
the new directories stay.
-/
namespace BuildProbe

open Text (Bytes)

/-- What is to be written where. The bytes arrive in chunks, the file beside the destination
has a name that is used for nothing else. Paths count from `place`, the present directory. -/
structure Draft where
  path : Path
  chunks : List Bytes
  name : String
  place : String
  deriving DecidableEq, Repr

namespace Draft

def content (d : Draft) : Bytes := d.chunks.flatten

def spelled (d : Draft) : String :=
  let directory := d.path.directory
  let lead := if directory.absolute then directory.text else Path.joined d.place directory.text
  Path.joined lead d.name

def overlong (d : Draft) : Bool :=
  Tree.nameTooLong d.name || Tree.pathLimit ≤ d.spelled.utf8ByteSize

def uncreated (d : Draft) (why : Refusal) : WriteFailure :=
  ⟨d.path.text, why.message ++ " at path " ++ Text.quoted d.spelled⟩

end Draft

inductive Writing where
  | comparing
  /-- Makes `dir`, from which `missing` leads down to the destination's directory. -/
  | climbing (dir : Path) (missing : List Path)
  | confirming (dir : Path) (missing : List Path) (why : Refusal)
  | descending (missing : List Path)
  | creating
  | filling (file : Location) (chunks : List Bytes)
  | syncing (file : Location)
  | examining (file : Location)
  | permitting (file : Location) (mode : Nat)
  | replacing (file : Location)
  | discarding (file : Location) (why : Errno)
  | done (result : Except WriteFailure Outcome)

namespace Writing

def failed (d : Draft) (reason : String) : Writing := .done (.error ⟨d.path.text, reason⟩)

def step (d : Draft) (t : Tree) : Writing → Tree × Writing
  | .comparing =>
    if d.path.isEmpty then (t, failed d "empty output path")
    else match t.read d.path with
      | .ok bytes =>
        if bytes = d.content then (t, .done (.ok .unchanged))
        else (t, .climbing d.path.directory [])
      | .error _ => (t, .climbing d.path.directory [])
  | .climbing dir missing =>
    if dir.isEmpty then (t, .descending missing)
    else match t.mkdir dir with
      | .ok t => (t, .descending missing)
      | .error why =>
        if why = .system .notFound then
          match dir.parent? with
          | some above => (t, .climbing above (dir :: missing))
          | none => (t, failed d why.message)
        else (t, .confirming dir missing why)
  | .confirming dir missing why =>
    if t.isDirectory dir then (t, .descending missing) else (t, failed d why.message)
  | .descending [] => (t, .creating)
  | .descending (dir :: missing) =>
    match t.mkdir dir with
    | .ok t => (t, .descending missing)
    | .error why => (t, .confirming dir missing why)
  | .creating =>
    match d.overlong, t.create d.path.directory d.name with
    | true, _ => (t, .done (.error (d.uncreated (.system .nameTooLong))))
    | false, .ok (file, t) => (t, .filling file d.chunks)
    | false, .error why => (t, .done (.error (d.uncreated why)))
  | .filling file [] => (t, .syncing file)
  | .filling file (chunk :: chunks) => (t.append file chunk, .filling file chunks)
  | .syncing file => (t, .examining file)
  | .examining file =>
    match t.fileMode? d.path with
    | some mode => (t, .permitting file mode)
    | none => (t, .replacing file)
  | .permitting file mode => (t.setMode file mode, .replacing file)
  | .replacing file =>
    match t.rename file d.path with
    | .ok t => (t, .done (.ok .written))
    | .error why => (t, .discarding file why)
  | .discarding file why => (t.erase file, failed d why.message)
  | .done result => (t, .done result)

/-- The state after a call that the system refuses for reasons of its own, such as a lack of room
or of permission. Nothing is asked of it for an empty path. -/
def refused (d : Draft) (why : Errno) : Writing → Writing
  | .comparing =>
    if d.path.isEmpty then failed d "empty output path" else .climbing d.path.directory []
  | .climbing dir missing => .confirming dir missing (.system why)
  | .confirming _ _ why => failed d why.message
  | .descending [] => .creating
  | .descending (dir :: missing) => .confirming dir missing (.system why)
  | .creating => .done (.error (d.uncreated (.system why)))
  | .filling file _ => .discarding file why
  | .syncing file => .discarding file why
  | .examining file => .replacing file
  | .permitting file _ => .discarding file why
  | .replacing file => .discarding file why
  | .discarding _ why => failed d why.message
  | .done result => .done result

def bound (d : Draft) : Writing → Nat
  | .comparing => 11 + d.chunks.length + 3 * d.path.directory.pieces.length
  | .climbing dir missing => 10 + d.chunks.length + 2 * missing.length + 3 * dir.pieces.length
  | .confirming _ missing _ => 9 + d.chunks.length + 2 * missing.length
  | .descending missing => 8 + d.chunks.length + 2 * missing.length
  | .creating => 7 + d.chunks.length
  | .filling _ chunks => 6 + chunks.length
  | .syncing _ => 5
  | .examining _ => 4
  | .permitting .. => 3
  | .replacing _ => 2
  | .discarding .. => 1
  | .done _ => 0

def result? : Writing → Option (Except WriteFailure Outcome)
  | .done result => some result
  | _ => none

theorem stepNearer (d : Draft) (t : Tree) {w : Writing} (going : w.result? = none) :
    (w.step d t).2.bound d < w.bound d := by
  cases w with
  | comparing =>
    simp only [step]
    split
    · simp only [failed, bound]; omega
    · split
      · split <;> simp only [bound, List.length_nil] <;> omega
      · simp only [bound, List.length_nil]; omega
  | climbing dir missing =>
    simp only [step]
    split
    · simp only [bound]; omega
    · split
      · simp only [bound]; omega
      · split
        · split
          · rename_i above h
            have := Path.parentShorter h
            simp only [bound, List.length_cons]; omega
          · simp only [failed, bound]; omega
        · simp only [bound]; omega
  | confirming dir missing why =>
    simp only [step]
    split
    · simp only [bound]; omega
    · simp only [failed, bound]; omega
  | descending missing =>
    cases missing with
    | nil => simp only [step, bound, List.length_nil]; omega
    | cons dir missing =>
      simp only [step]
      split <;> simp only [bound, List.length_cons] <;> omega
  | creating =>
    simp only [step]
    split <;> simp only [bound] <;> omega
  | filling file chunks => cases chunks <;> simp [step, bound]
  | syncing file => simp [step, bound]
  | examining file =>
    simp only [step]
    split <;> simp [bound]
  | permitting file mode => simp [step, bound]
  | replacing file =>
    simp only [step]
    split <;> simp [bound]
  | discarding file why => simp [step, bound, failed]
  | done result => simp [result?] at going

theorem refusedNearer (d : Draft) (why : Errno) {w : Writing} (going : w.result? = none) :
    (w.refused d why).bound d < w.bound d := by
  cases w with
  | comparing =>
    simp only [refused]
    split
    · simp only [failed, bound]; omega
    · simp only [bound, List.length_nil]; omega
  | descending missing => cases missing <;> simp only [refused, bound, List.length_cons] <;> omega
  | climbing dir missing => simp only [refused, bound]; omega
  | confirming dir missing why => simp only [refused, failed, bound]; omega
  | creating => simp only [refused, bound]; omega
  | filling file chunks => simp only [refused, bound]; omega
  | done result => simp [result?] at going
  | _ => simp [refused, failed, bound]

end Writing

/-- What the system refuses of a writing's calls, as far as it does, by the state that makes the
call. It always lets a file be removed. -/
structure Disk where
  refuses : Writing → Option Errno
  clears : ∀ file why, refuses (.discarding file why) = none

def Disk.sound : Disk := ⟨fun _ => none, fun _ _ => rfl⟩

namespace Writing

def next (d : Draft) (disk : Disk) (t : Tree) (w : Writing) : Tree × Writing :=
  match disk.refuses w with
  | some why => (t, w.refused d why)
  | none => w.step d t

theorem nextNearer (d : Draft) (disk : Disk) (t : Tree) {w : Writing} (going : w.result? = none) :
    (w.next d disk t).2.bound d < w.bound d := by
  unfold next
  split
  · exact refusedNearer d _ going
  · exact stepNearer d t going

def finish (d : Draft) (disk : Disk) (t : Tree) (w : Writing) :
    Tree × Except WriteFailure Outcome :=
  match _going : w.result? with
  | some result => (t, result)
  | none => finish d disk (w.next d disk t).1 (w.next d disk t).2
termination_by w.bound d
decreasing_by exact nextNearer d disk t _going

end Writing

def Draft.write (d : Draft) (disk : Disk) (t : Tree) : Tree × Except WriteFailure Outcome :=
  Writing.finish d disk t .comparing

/-- What a writing finds where it works: how the present directory is spelled, and a name for a
file of its own whatever names are taken. -/
structure Site where
  place : String
  name : List String → String
  free : ∀ taken, name taken ∉ taken
  proper : ∀ taken, name taken ≠ "" ∧ name taken ≠ "." ∧ name taken ≠ ".."

namespace Tree

def words (t : Tree) : List String :=
  t.directories.toList.flatMap fun (_, names) => names.flatMap fun (name, e) =>
    match e.node with
    | .link target => name :: target.pieces
    | _ => [name]

def draft (t : Tree) (site : Site) (p : Path) (flags : List Flag) : Draft :=
  ⟨p, [Text.encode (Artifact.render flags)], site.name (p.pieces ++ t.words), site.place⟩

def persist (t : Tree) (site : Site) (disk : Disk) (p : Path) (flags : List Flag) :
    Tree × Except WriteFailure Outcome :=
  (t.draft site p flags).write disk t

end Tree
end BuildProbe
