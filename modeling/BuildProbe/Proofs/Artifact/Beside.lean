import BuildProbe.Proofs.Artifact.Atomicity
import BuildProbe.Proofs.Artifact.Fate
import BuildProbe.Proofs.Artifact.Replacement
import BuildProbe.Proofs.Path.Spelling
import BuildProbe.Proofs.Tree.Threshold

/-!
The file of its own is beside the destination. From when it is made until it is moved or removed it
is in the directory that the path's directory denotes, and that is the one in which the path's last
name is looked up. So moving it into place never takes it to another directory.
-/
namespace BuildProbe

namespace Tree

variable {t t' after : Tree} {p : Path} {before : List String} {name : String}

theorem opensWays (ways : t.SameWays t') {directory : Nat} (opened : t.opens p = .ok directory) :
    t'.opens p = .ok directory := by
  obtain ⟨plain, entered⟩ := withPathOk.mp opened
  refine withPathOk.mpr ⟨plain, ?_⟩
  rw [enter] at entered ⊢
  cases led : t.resolve true p with
  | error why =>
    rw [led] at entered
    cases entered
  | ok goal =>
    rw [led] at entered
    cases goal with
    | «at» loc e => cases entered
    | inside way =>
      rw [waysInside ways led]
      exact entered

theorem opensAdd {loc : Location} (free : t.get? loc = none) {content : Content}
    {mode directory : Nat} (opened : t.opens p = .ok directory) :
    (t.add loc (.file content mode)).opens p = .ok directory := by
  refine opensWays (waysInsert ?_ rfl) opened
  rw [free]
  rintro _ ⟨⟩

theorem renameBeside (ordinary : name ≠ "" ∧ name ≠ "." ∧ name ≠ "..")
    (pieces : p.pieces = before ++ [name]) {file : Location}
    (opened : t.opens p.directory = .ok file.directory) (done : t.rename file p = .ok after) :
    ∃ e, t.get? file = some e ∧ after = (t.erase file).insert ⟨file.directory, name⟩ e := by
  obtain ⟨_, ⟨directory, last⟩, e, place, _, _, there, made⟩ := renameMoved done
  obtain ⟨_, entered⟩ := withPathOk.mp opened
  rw [slotDirectory ordinary (slotInside place).1 pieces, entered] at place
  cases place
  exact ⟨e, there, made⟩

end Tree

namespace Writing

/- A writing's own file, as long as there is one, is beside the destination under its own name. -/
def Beside (d : Draft) (now : Tree) (w : Writing) : Prop :=
  ∀ file, w.file? = some file →
    now.opens d.path.directory = .ok file.directory ∧ file.name = d.name

variable {may : Writing → Prop} {d : Draft} {before now : Tree} {w : Writing}

theorem besideWays {now' : Tree} {w' : Writing} (ways : now.SameWays now')
    (same : w'.file? = w.file?) (beside : Beside d now w) : Beside d now' w' := by
  intro file own
  obtain ⟨opened, name⟩ := beside file (same ▸ own)
  exact ⟨Tree.opensWays ways opened, name⟩

theorem besideBare (bare : w.file? = none) : Beside d now w := by
  intro file own
  rw [bare] at own
  cases own

theorem besideStep (beside : Beside d now w) : Beside d (w.step d now).1 (w.step d now).2 := by
  have still := now.waysRefl
  cases w with
  | comparing =>
    refine besideBare ?_
    simp only [step]
    repeat' split
    all_goals rfl
  | climbing dir missing =>
    refine besideBare ?_
    simp only [step]
    repeat' split
    all_goals rfl
  | confirming dir missing why =>
    refine besideBare ?_
    simp only [step]
    split <;> rfl
  | descending missing =>
    refine besideBare ?_
    cases missing with
    | nil => rfl
    | cons dir missing =>
      simp only [step]
      split <;> rfl
  | creating =>
    simp only [step]
    split
    · exact besideBare rfl
    · rename_i file after _ made
      obtain ⟨plain, _⟩ := Tree.withPathOk.mp made
      obtain ⟨entered, name, free, rfl⟩ := Tree.createMade made
      rintro _ ⟨⟩
      exact ⟨Tree.opensAdd free (Tree.withPathOk.mpr ⟨plain, entered⟩), name⟩
    · exact besideBare rfl
  | filling file chunks =>
    cases chunks with
    | nil => exact besideWays still rfl beside
    | cons chunk chunks => exact besideWays (now.waysAppend file chunk) rfl beside
  | syncing file => exact besideWays still rfl beside
  | examining file =>
    simp only [step]
    split <;> exact besideWays still rfl beside
  | permitting file mode => exact besideWays (now.waysSetMode file mode) rfl beside
  | replacing file =>
    simp only [step]
    split
    · exact besideBare rfl
    · exact besideWays still rfl beside
  | discarding file why => exact besideBare rfl
  | done result => exact beside

theorem besideRefused (beside : Beside d now w) (why : Errno) : Beside d now (w.refused d why) := by
  have still := now.waysRefl
  cases w with
  | comparing =>
    refine besideBare ?_
    simp only [refused]
    split <;> rfl
  | descending missing => cases missing <;> exact besideBare rfl
  | filling file chunks => exact besideWays still rfl beside
  | syncing file => exact besideWays still rfl beside
  | examining file => exact besideWays still rfl beside
  | permitting file mode => exact besideWays still rfl beside
  | replacing file => exact besideWays still rfl beside
  | done result => exact beside
  | _ => exact besideBare rfl

theorem reachedBeside (reached : Reaches may d before now w) : Beside d now w := by
  induction reached with
  | start => exact besideBare rfl
  | step so beside => exact besideStep beside
  | refuse so refusable why beside => exact besideRefused beside why

end Writing

namespace Tree

open BuildProbe.Path (behindSlash)

theorem adjoinsText {s : String}
    (ordinary : behindSlash s ≠ "" ∧ behindSlash s ≠ "." ∧ behindSlash s ≠ "..")
    (short : s.utf8ByteSize < pathLimit) (t : Tree) : t.Adjoins (.ofText s) (behindSlash s) := by
  obtain ⟨before, pieces⟩ := Path.piecesBehind ordinary.1
  have size : ¬ pathLimit ≤ (Path.ofText s).text.utf8ByteSize := by
    rw [Path.textOfText]
    exact Nat.not_le.mpr short
  have filled : (Path.ofText s).isEmpty = false := by
    rw [Path.isEmpty, pieces]
    simp
  exact adjoinsNamed ordinary (unfitNone size filled) pieces t

theorem destinationAdjoins (t : Tree) {s : String}
    (ordinary : behindSlash s ≠ "" ∧ behindSlash s ≠ "." ∧ behindSlash s ≠ "..") :
    (s.utf8ByteSize < pathLimit → t.Adjoins (.ofText s) (behindSlash s)) ∧
    ∀ {may d now w file}, d.path = .ofText s → Writing.Reaches may d t now w →
      w.file? = some file →
      now.opens (Path.ofText s).directory = .ok file.directory ∧ file.name = d.name ∧
      ∀ after, now.rename file (.ofText s) = .ok after →
        ∃ e, now.get? file = some e ∧
          after = (now.erase file).insert ⟨file.directory, behindSlash s⟩ e := by
  refine ⟨fun short => adjoinsText ordinary short t, ?_⟩
  intro may d now w file path reached own
  obtain ⟨opened, name⟩ := Writing.reachedBeside reached file own
  obtain ⟨before, pieces⟩ := Path.piecesBehind ordinary.1
  rw [path] at opened
  exact ⟨opened, name, fun after done => renameBeside ordinary pieces opened done⟩

def detour : Draft := ⟨.ofText "l/.//x", [[0x78]], ".tmp", "/work"⟩

theorem linkedAdjoins :
    behindSlash "l/.//x" = "x" ∧ crossroads.Adjoins (.ofText "l/.//x") "x" ∧
    (Writing.after detour crossroads 9).2 = .replacing ⟨1, ".tmp"⟩ ∧
    (Writing.after detour crossroads 9).1.opens (Path.ofText "l/.//x").directory = .ok 1 := by
  have last : behindSlash "l/.//x" = "x" := by decide +kernel
  have ordinary : behindSlash "l/.//x" ≠ "" ∧ behindSlash "l/.//x" ≠ "." ∧
      behindSlash "l/.//x" ≠ ".." := by decide +kernel
  have state : (Writing.after detour crossroads 9).2 = .replacing ⟨1, ".tmp"⟩ := by cbv
  obtain ⟨adjoins, moves⟩ := destinationAdjoins crossroads ordinary
  have reached := Writing.afterReached (fun _ => False) detour crossroads 9
  obtain ⟨opened, _⟩ := moves rfl reached (congrArg Writing.file? state)
  exact ⟨last, last ▸ adjoins (by decide +kernel), state, opened⟩

def stretched (n : Nat) : String :=
  String.ofList ('.' :: '/' :: (List.replicate n '/' ++ ['x']))

theorem stretchedPath (n : Nat) :
    Path.ofText (stretched n) = ⟨false, "." :: (List.replicate n "" ++ ["x"])⟩ := by
  have whole : (stretched n).toList = ['.'] ++ '/' :: (List.replicate n '/' ++ ['x']) :=
    String.toList_ofList
  have pieces : Path.piecesOf (['.'] ++ '/' :: (List.replicate n '/' ++ ['x'])) =
      "." :: (List.replicate n "" ++ ["x"]) := by
    rw [Path.piecesOf, if_neg (List.append_ne_nil_of_left_ne_nil (by decide) _),
      List.splitOn_append_cons_self_of_not_mem (by decide), Text.splitMarks, List.map_cons,
      List.map_append, List.map_replicate]
    rfl
  unfold Path.ofText
  rw [whole]
  exact congrArg (Path.mk false) pieces

theorem stretchedBehind (n : Nat) : behindSlash (stretched n) = "x" := by
  have turned : ('.' :: '/' :: (List.replicate n '/' ++ ['x'])).reverse =
      'x' :: '/' :: (List.replicate n '/' ++ ['.']) := by
    rw [← List.cons_append, ← List.replicate_succ, List.replicate_succ']
    simp
  rw [behindSlash, stretched, String.toList_ofList, turned, List.takeWhile_cons_of_pos (by decide),
    List.takeWhile_cons_of_neg (by decide)]
  rfl

theorem stretchedLong (n : Nat) : n ≤ (stretched n).utf8ByteSize := by
  have slashes : ∀ rest, n ≤ String.utf8Len (List.replicate n '/' ++ rest) := by
    intro rest
    induction n with
    | zero => exact Nat.zero_le _
    | succ n ih =>
      rw [List.replicate_succ, List.cons_append, String.utf8Len_cons]
      exact Nat.add_le_add ih (Char.utf8Size_pos _)
  rw [stretched, String.utf8ByteSize_ofList, String.utf8Len_cons, String.utf8Len_cons]
  have := slashes ['x']
  omega

theorem stretchedPieces (n : Nat) :
    (Path.ofText (stretched n)).pieces = ("." :: List.replicate n "") ++ ["x"] :=
  congrArg Path.pieces (stretchedPath n)

theorem stretchedHere (n : Nat) : (Path.ofText (stretched n)).directory = .here := by
  refine Path.directoryHere (by decide) (congrArg Path.absolute (stretchedPath n)) ?_
    (stretchedPieces n)
  intro b member
  rcases List.mem_cons.mp member with rfl | member
  · exact .inr rfl
  · exact .inl (List.eq_of_mem_replicate member)

theorem stretchedPlain (n : Nat) : (Path.ofText (stretched n)).hasNul = false := by
  rw [nulDirectory (by decide) (stretchedPieces n), stretchedHere]
  decide

theorem stretchedParted :
    let s := stretched 4096
    let e : Entry := ⟨1, .file (.data (Text.encode "--cfg=a\n")) 0o644⟩
    let t := Tree.insert ⟨∅, []⟩ ⟨root, "x"⟩ e
    (behindSlash s ≠ "" ∧ behindSlash s ≠ "." ∧ behindSlash s ≠ "..") ∧
    t.opens (Path.ofText s).directory = .ok root ∧ t.within root (behindSlash s) = .ok e ∧
    t.lstat (.ofText s) = .error (.system .nameTooLong) ∧
    ¬ t.Adjoins (.ofText s) (behindSlash s) := by
  intro s e t
  have last : behindSlash s = "x" := stretchedBehind 4096
  have opened : t.opens (Path.ofText s).directory = .ok root := by
    rw [stretchedHere]
    exact opensHere t
  have found : t.within root "x" = .ok e := by
    rw [within, withPath, if_neg (by decide), look, if_neg (by decide +kernel), getInsert,
      if_pos rfl]
    rfl
  have refused : t.lstat (.ofText s) = .error (.system .nameTooLong) := by
    refine lstatLong (stretchedPlain 4096) ?_
    rw [Path.textOfText]
    exact stretchedLong 4096
  rw [last]
  refine ⟨by decide, opened, found, refused, ?_⟩
  intro adjoins
  cases adjoins with
  | neither unopened unfound =>
    rw [opened] at unopened
    cases unopened
  | together there place same =>
    rw [opened] at there
    cases there
    rw [refused, found] at same
    cases same

end Tree
end BuildProbe
