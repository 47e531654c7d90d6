import BuildProbe.Artifact.Site
import BuildProbe.Proofs.Artifact.Persisting
import BuildProbe.Proofs.Tree.Roads
import Mathlib

/-!
What exactly a successful write does. It finds the artifact at its path already exactly when
reading the path yields the same bytes, and then it leaves the tree alone. Otherwise the roads to
the path's directory are made, and the entry directly at the path gives way to a new file with the
artifact's bytes and with the permission bits of the file that the path led to by then. The path
leads to that file afterwards, unless it led to its place only through the link in that very place.
-/
namespace BuildProbe

open Text (Bytes)

namespace Writing

def ahead : Writing → List Path
  | .climbing dir missing => dir :: missing
  | .confirming _ missing _ => missing
  | .descending missing => missing
  | _ => []

/- Directories were made as roads to the path's directory only. In the end the artifact stands on
ground that is otherwise made of those. -/
def Charted (may : Writing → Prop) (d : Draft) (before now : Tree) : Writing → Prop
  | .done (.ok .written) => ∃ ground loc mode,
      Placed d before ground now loc mode ∧ Bits may d.path ground mode ∧
      before.Roads ground d.path.directory ∧
      ∃ way, ground.resolve true d.path.directory = .ok (.inside way)
  | w => before.Roads now d.path.directory ∧ ∀ part ∈ w.ahead, part.LeadsTo d.path.directory

variable {may : Writing → Prop} {d : Draft} {before now : Tree}

theorem climbingCharted {dir : Path} {missing : List Path}
    (charted : Charted may d before now (.climbing dir missing)) :
    Charted may d before (step d now (.climbing dir missing)).1
      (step d now (.climbing dir missing)).2 := by
  obtain ⟨roads, ways⟩ := charted
  have first := ways dir List.mem_cons_self
  have rest : ∀ part ∈ missing, part.LeadsTo d.path.directory :=
    fun part later => ways part (List.mem_cons_of_mem _ later)
  simp only [step]
  split
  · exact ⟨roads, rest⟩
  · split
    · rename_i made
      exact ⟨Tree.roadsMkdir roads first made, rest⟩
    · split
      · split
        · rename_i above higher
          refine ⟨roads, ?_⟩
          intro part member
          cases member with
          | head => exact Path.leadsToParent first higher
          | tail _ lower => exact ways part lower
        · exact ⟨roads, List.forall_mem_nil _⟩
      · exact ⟨roads, rest⟩

theorem descendingCharted {missing : List Path}
    (charted : Charted may d before now (.descending missing)) :
    Charted may d before (step d now (.descending missing)).1
      (step d now (.descending missing)).2 := by
  obtain ⟨roads, ways⟩ := charted
  cases missing with
  | nil => exact ⟨roads, List.forall_mem_nil _⟩
  | cons dir missing =>
    have rest : ∀ part ∈ missing, part.LeadsTo d.path.directory :=
      fun part later => ways part (List.mem_cons_of_mem _ later)
    simp only [step]
    split
    · rename_i made
      exact ⟨Tree.roadsMkdir roads (ways dir List.mem_cons_self) made, rest⟩
    · exact ⟨roads, rest⟩

theorem creatingCharted (charted : Charted may d before now .creating) :
    Charted may d before (step d now .creating).1 (step d now .creating).2 := by
  simp only [step]
  split
  · exact ⟨charted.1, List.forall_mem_nil _⟩
  · rename_i file after _ made
    obtain ⟨_, _, free, rfl⟩ := Tree.createMade made
    refine ⟨Tree.roadsWays charted.1 (Tree.waysInsert ?_ rfl), List.forall_mem_nil _⟩
    intro old found
    rw [free] at found
    cases found
  · exact ⟨charted.1, List.forall_mem_nil _⟩

theorem replacingCharted {file : Location} (apart : d.Apart)
    (stands : Stands may d before now (.replacing file))
    (charted : Charted may d before now (.replacing file)) :
    Charted may d before (step d now (.replacing file)).1 (step d now (.replacing file)).2 := by
  obtain ⟨ground, mode, drafted, bits⟩ := stands
  simp only [step]
  split
  · rename_i after moved
    obtain ⟨loc, placed⟩ := draftedRename apart drafted moved
    -- The file beside the destination is no part of the ground, and no road.
    have ways : now.SameWays ground := by
      refine ⟨drafted.present.symm, ?_⟩
      intro other e passable
      by_cases own : other = file
      · subst own
        rw [drafted.free, drafted.draft]
        constructor
        · intro none
          cases none
        · intro same
          cases same
          cases passable
      · rw [drafted.others own]
    refine ⟨ground, loc, mode, placed, bits, Tree.roadsWays charted.1 ways, ?_⟩
    have entered := drafted.beside
    unfold Tree.enter at entered
    cases led : ground.resolve true d.path.directory with
    | error why =>
      rw [led] at entered
      cases entered
    | ok goal =>
      cases goal with
      | inside way => exact ⟨way, rfl⟩
      | «at» other e =>
        rw [led] at entered
        cases entered
  · exact ⟨charted.1, List.forall_mem_nil _⟩

theorem stepCharted {w : Writing} (apart : d.Apart) (stands : Stands may d before now w)
    (charted : Charted may d before now w) : Charted may d before (w.step d now).1 (w.step d now).2 := by
  cases w with
  | comparing =>
    have climbing : Charted may d before now (.climbing d.path.directory []) := by
      refine ⟨charted.1, ?_⟩
      intro part member
      exact .inl (List.mem_singleton.mp member)
    simp only [step]
    split
    · exact ⟨charted.1, List.forall_mem_nil _⟩
    · split
      · split
        · exact ⟨charted.1, List.forall_mem_nil _⟩
        · exact climbing
      · exact climbing
  | climbing dir missing => exact climbingCharted charted
  | confirming dir missing why =>
    simp only [step]
    split
    · exact charted
    · exact ⟨charted.1, List.forall_mem_nil _⟩
  | descending missing => exact descendingCharted charted
  | creating => exact creatingCharted charted
  | filling file chunks =>
    cases chunks with
    | nil => exact ⟨charted.1, List.forall_mem_nil _⟩
    | cons chunk chunks =>
      exact ⟨Tree.roadsWays charted.1 (now.waysAppend file chunk), List.forall_mem_nil _⟩
  | syncing file => exact ⟨charted.1, List.forall_mem_nil _⟩
  | examining file =>
    simp only [step]
    split
    · exact ⟨charted.1, List.forall_mem_nil _⟩
    · exact ⟨charted.1, List.forall_mem_nil _⟩
  | permitting file mode =>
    exact ⟨Tree.roadsWays charted.1 (now.waysSetMode file mode), List.forall_mem_nil _⟩
  | replacing file => exact replacingCharted apart stands charted
  | discarding file why =>
    obtain ⟨ground, bytes, mode, drafted, _⟩ := stands
    refine ⟨Tree.roadsWays charted.1 (Tree.waysErase ?_), List.forall_mem_nil _⟩
    intro old found
    rw [drafted.draft] at found
    cases found
    rfl
  | done result => exact charted

theorem refusedCharted {w : Writing} (charted : Charted may d before now w) (reason : Errno) :
    Charted may d before now (w.refused d reason) := by
  cases w with
  | comparing =>
    simp only [refused]
    split
    · exact charted
    · refine ⟨charted.1, ?_⟩
      intro part member
      exact .inl (List.mem_singleton.mp member)
  | climbing dir missing =>
    exact ⟨charted.1, fun part later => charted.2 part (List.mem_cons_of_mem _ later)⟩
  | descending missing =>
    cases missing with
    | nil => exact charted
    | cons dir missing =>
      exact ⟨charted.1, fun part later => charted.2 part (List.mem_cons_of_mem _ later)⟩
  | done result => exact charted
  | _ => exact ⟨charted.1, List.forall_mem_nil _⟩

theorem reachedCharted {w : Writing} (apart : d.Apart) (reached : Reaches may d before now w) :
    Charted may d before now w := by
  induction reached with
  | start => exact ⟨before.roadsRefl _, List.forall_mem_nil _⟩
  | step so ih => exact stepCharted apart (reachedStands apart so) ih
  | refuse so refusable why ih => exact refusedCharted ih why

theorem finishStep {w w' : Writing} (going : w.result? = none)
    (stepped : w.step d before = (now, w')) :
    finish d .sound before w = finish d .sound now w' := by
  have next : w.next d .sound before = (now, w') := stepped
  rw [finish, going, next]

theorem finishDone (d : Draft) (disk : Disk) (t : Tree) (result : Except WriteFailure Outcome) :
    finish d disk t (.done result) = (t, result) := by
  rw [finish]
  rfl

theorem placedLstat {ground : Tree} {loc : Location} {mode : Nat}
    (placed : Placed d before ground now loc mode) :
    now.lstat d.path = .ok ⟨ground.freshId, .file (.data d.content) mode⟩ ∨
      now.lstat d.path = .error (.system .notADirectory) ∧ before.Crossed d.path := by
  cases placedSlot placed with
  | inl place =>
    have led := Tree.resolvePlaced place placed.short placed.complete rfl false
    exact .inl (Tree.withPathOk.mpr ⟨placed.plain, by rw [Tree.entry, led]; rfl⟩)
  | inr halted =>
    obtain ⟨fit, stopped⟩ := Tree.slotHalted halted
    obtain ⟨_, k, pieces⟩ := Tree.splitLastName (Tree.slotName placed.place)
    have led : now.resolve false d.path = .error .notADirectory := by
      rw [Tree.resolve, fit]
      simp only
      rw [show d.path.pieces = _ from pieces]
      exact Tree.walkHalted (List.cons_ne_nil _ _) stopped
    refine .inr ⟨?_, placedCrossed placed halted⟩
    simp only [Tree.lstat, Tree.withPath, Tree.entry, placed.plain, led]
    rfl

end Writing

namespace Tree

/- A new file with the artifact in the place that a path names. The ground is the tree from before
with the roads to the path's directory, and the tree afterwards differs from it in that place
only. -/
structure Replaced (before ground after : Tree) (p : Path) (bytes : Bytes) (loc : Location)
    (id mode : Nat) : Prop where
  grown : before.Grows ground
  made : ∀ {other e}, before.get? other = none → ground.get? other = some e → e.isDirectory = true
  roads : before.Roads ground p.directory
  reached : ∃ way, ground.resolve true p.directory = .ok (.inside way)
  place : ground.slot p = .ok ⟨loc.directory, .name loc.name, false⟩
  old : ground.get? loc = before.get? loc
  replaceable : ∀ e, before.get? loc = some e → e.isDirectory = false
  new : ∀ {other e}, before.get? other = some e → e.id ≠ id
  complete : after.get? loc = some ⟨id, .file (.data bytes) mode⟩
  bits : mode = (ground.fileMode? p).getD draftMode
  others : ∀ {other}, other ≠ loc → after.get? other = ground.get? other
  found : after.lstat p = .ok ⟨id, .file (.data bytes) mode⟩ ∨
    after.lstat p = .error (.system .notADirectory) ∧ before.Crossed p

variable {t : Tree} {p : Path}

theorem resolveNonempty {follow : Bool} {goal : Goal} (led : t.resolve follow p = .ok goal) :
    p.isEmpty = false := by
  unfold resolve unfit? at led
  cases bare : p.isEmpty with
  | false => rfl
  | true =>
    rw [bare] at led
    split at led
    · cases led
    · rename_i fit
      split at fit <;> cases fit

theorem readNonempty {bytes : Bytes} (read : t.read p = .ok bytes) : p.isEmpty = false := by
  obtain ⟨id, content, mode, there, _⟩ := readOk.mp read
  obtain ⟨_, goal, led, _⟩ := statOk.mp there
  exact resolveNonempty led

end Tree

namespace Draft

variable {d : Draft} {t after : Tree} {p : Path} {flags : List Flag} {outcome : Outcome}

theorem writeUnchanged (renders : d.Renders p flags) (t : Tree) :
    d.write .sound t = (t, .ok .unchanged) ↔
      t.read p = .ok (Text.encode (Artifact.render flags)) := by
  obtain ⟨rfl, content, apart⟩ := renders
  rw [← content]
  constructor
  · intro done
    cases writePersisted apart done with
    | unchanged same read => exact read
  · intro read
    have compared : Writing.comparing.step d t = (t, .done (.ok .unchanged)) := by
      simp only [Writing.step, Tree.readNonempty read, read, Bool.false_eq_true, if_false, if_true]
    rw [write, Writing.finishStep rfl compared, Writing.finishDone]

theorem writeReplaced (renders : d.Renders p flags)
    (done : d.write .sound t = (after, .ok .written)) :
    ∃ ground loc id mode,
      t.Replaced ground after p (Text.encode (Artifact.render flags)) loc id mode := by
  obtain ⟨rfl, content, apart⟩ := renders
  obtain ⟨ground, loc, mode, placed, bits, roads, way, led⟩ :=
    Writing.reachedCharted apart (Writing.finishReached .start done)
  rw [← content]
  have paved := placed.paved
  -- What stands at the place was there before, for everything else on the ground is a directory.
  have old : ground.get? loc = t.get? loc := by
    cases found : ground.get? loc with
    | none =>
      cases known : t.get? loc with
      | none => rfl
      | some e =>
        rw [paved.grows.kept known] at found
        cases found
    | some e =>
      cases known : t.get? loc with
      | some e' => exact found.symm.trans (paved.grows.kept known)
      | none =>
        have directory := (paved.made known found).1
        rw [placed.replaceable e found] at directory
        cases directory
  refine ⟨ground, loc, ground.freshId, mode, ⟨paved.grows, ?_, roads, ⟨way, led⟩, placed.place, old,
    ?_, ?_, placed.complete, ?_, placed.others, Writing.placedLstat placed⟩⟩
  · intro other e absent found
    exact (paved.made absent found).1
  · intro e found
    exact placed.replaceable e (old.trans found)
  · intro other e found
    exact Nat.ne_of_lt (Tree.idFresh (paved.grows.kept found))
  · rcases bits with taken | ⟨⟨file, refused⟩, _⟩
    · exact taken
    · exact absurd refused (Disk.soundDoes _)

theorem writeOutcome (renders : d.Renders p flags)
    (done : d.write .sound t = (after, .ok outcome)) :
    outcome = .unchanged ↔ t.read p = .ok (Text.encode (Artifact.render flags)) := by
  constructor
  · intro unchanged
    subst unchanged
    have persisted := writePersisted renders.apart done
    rw [renders.path, renders.content] at persisted
    cases persisted with
    | unchanged same read => exact read
  · intro read
    have again := (writeUnchanged renders t).mpr read
    rw [done] at again
    exact Except.ok.inj (congrArg Prod.snd again)

theorem writeExact (renders : d.Renders p flags) (done : d.write .sound t = (after, .ok outcome)) :
    (outcome = .unchanged ↔ t.read p = .ok (Text.encode (Artifact.render flags))) ∧
    (outcome = .unchanged → after = t) ∧
    (outcome = .written → ∃ ground loc id mode,
      t.Replaced ground after p (Text.encode (Artifact.render flags)) loc id mode) := by
  refine ⟨writeOutcome renders done, ?_, ?_⟩
  · intro unchanged
    subst unchanged
    cases writePersisted renders.apart done with
    | unchanged same read => exact same
  · intro written
    subst written
    exact writeReplaced renders done

end Draft

namespace Tree

def veiled : Tree :=
  let t := Tree.add ⟨∅, []⟩ ⟨root, "f"⟩ (.file (.data [0x6F]) 0o640)
  t.add ⟨root, "l"⟩ (.link (.ofText "f"))

theorem linkReplaced :
    let after := (veiled.persist .standard .sound (.ofText "l") [⟨"x"⟩]).1
    veiled.persist .standard .sound (.ofText "l") [⟨"x"⟩] = (after, .ok .written) ∧
    after.get? ⟨root, "l"⟩ = some ⟨3, .file (.data (Text.encode "--cfg=x\n")) 0o640⟩ ∧
    ∃ ground loc id mode, veiled.Replaced ground after (.ofText "l")
      (Text.encode (Artifact.render [⟨"x"⟩])) loc id mode := by
  intro after
  have written : (veiled.persist .standard .sound (.ofText "l") [⟨"x"⟩]).2 = .ok .written := by cbv
  have taken : (veiled.persist .standard .sound (.ofText "l") [⟨"x"⟩]).1.get? ⟨root, "l"⟩ =
      some ⟨3, .file (.data (Text.encode "--cfg=x\n")) 0o640⟩ := by cbv
  have done : veiled.persist .standard .sound (.ofText "l") [⟨"x"⟩] = (after, .ok .written) :=
    Prod.ext rfl written
  exact ⟨done, taken, (Draft.writeExact (veiled.draftRenders ..) done).2.2 rfl⟩

def crossroads : Tree :=
  (Tree.add ⟨∅, []⟩ ⟨root, "d"⟩ .directory).add ⟨root, "l"⟩ (.link (.ofText "d"))

theorem replacedUnfound :
    (crossroads.persist .standard .sound (.ofText "l/../l") [⟨"x"⟩]).2 = .ok .written ∧
    (crossroads.persist .standard .sound (.ofText "l/../l") [⟨"x"⟩]).1.lstat (.ofText "l/../l") =
      .error (.system .notADirectory) := by
  exact ⟨by cbv, by cbv⟩

end Tree
end BuildProbe
