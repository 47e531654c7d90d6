import BuildProbe.Proofs.Tree.Passage
import Mathlib.Data.List.Forall2

/-!
Trees that differ in what some files hold. One tree resembles another when both have the same
entries, with the same names, identities, bits and links, and only the contents of files may
differ, in ways that are given. Looking a path up leads to the same place in both, so whatever is
asked of the one is refused or done in the other alike, and the trees resemble each other still.
-/
namespace BuildProbe

open Text (Bytes)

/- Two results that fail for the same reason, or succeed with values that are alike. -/
inductive Tallies (alike : α → α → Prop) : Except ε α → Except ε α → Prop where
  | ok {a a' : α} (same : alike a a') : Tallies alike (.ok a) (.ok a')
  | error (why : ε) : Tallies alike (.error why) (.error why)

theorem talliesMap {alike : α → α → Prop} {alike' : β → β → Prop} {f : α → β}
    (keeps : ∀ {a a'}, alike a a' → alike' (f a) (f a')) {r r' : Except ε α}
    (tallies : Tallies alike r r') : Tallies alike' (r.map f) (r'.map f) := by
  cases tallies with
  | ok same => exact .ok (keeps same)
  | error why => exact .error why

inductive Entry.Resembles (differ : Content → Content → Prop) : Entry → Entry → Prop where
  | same (e : Entry) : Resembles differ e e
  | file {content content' : Content} (id mode : Nat) (other : differ content content') :
      Resembles differ ⟨id, .file content mode⟩ ⟨id, .file content' mode⟩

theorem Entry.Resembles.identity {differ : Content → Content → Prop} {e e' : Entry}
    (like : e.Resembles differ e') : e.id = e'.id := by
  cases like <;> rfl

abbrev Entries.Resemble (differ : Content → Content → Prop) :
    List (String × Entry) → List (String × Entry) → Prop :=
  List.Forall₂ fun x x' => x.1 = x'.1 ∧ x.2.Resembles differ x'.2

namespace Tree

structure Resembles (differ : Content → Content → Prop) (t t' : Tree) : Prop where
  present : t.present = t'.present
  known : ∀ directory, directory ∈ t.directories ↔ directory ∈ t'.directories
  names : ∀ directory, Entries.Resemble differ (t.names directory) (t'.names directory)

inductive Goal.Resembles (differ : Content → Content → Prop) : Goal → Goal → Prop where
  | inside (way : List Nat) : Resembles differ (.inside way) (.inside way)
  | at {e e' : Entry} (loc : Location) (like : e.Resembles differ e') :
      Resembles differ (.at loc e) (.at loc e')

variable {differ : Content → Content → Prop} {t t' : Tree}

theorem resemblesRefl (differ : Content → Content → Prop) (t : Tree) : t.Resembles differ t :=
  ⟨rfl, fun _ => Iff.rfl, fun _ => List.forall₂_same.mpr fun x _ => ⟨rfl, .same x.2⟩⟩

theorem findResembles {entries entries' : List (String × Entry)}
    (like : Entries.Resemble differ entries entries') (name : String) :
    Option.Rel (Entry.Resembles differ) ((entries.find? (·.1 = name)).map (·.2))
      ((entries'.find? (·.1 = name)).map (·.2)) := by
  induction like with
  | nil => exact .none
  | @cons x x' rest rest' first later ih =>
    obtain ⟨same, like⟩ := first
    by_cases here : x.1 = name
    · have here' : x'.1 = name := same ▸ here
      simpa [here, here'] using like
    · have other : ¬ x'.1 = name := same ▸ here
      simpa [here, other] using ih

theorem getResembles (like : t.Resembles differ t') (loc : Location) :
    Option.Rel (Entry.Resembles differ) (t.get? loc) (t'.get? loc) :=
  findResembles (like.names loc.directory) loc.name

theorem rewriteResembles (like : t.Resembles differ t') (directory : Nat)
    {entries entries' : List (String × Entry)} (names : Entries.Resemble differ entries entries') :
    (t.rewrite directory entries).Resembles differ (t'.rewrite directory entries') := by
  refine ⟨like.present, ?_, ?_⟩
  · intro other
    simp only [rewrite, Std.TreeMap.mem_insert, like.known other]
  · intro other
    rw [namesRewrite, namesRewrite]
    split
    · exact names
    · exact like.names other

theorem othersResemble (like : t.Resembles differ t') (loc : Location) :
    Entries.Resemble differ ((t.names loc.directory).filter (·.1 ≠ loc.name))
      ((t'.names loc.directory).filter (·.1 ≠ loc.name)) := by
  refine List.rel_filter ?_ (like.names loc.directory)
  intro x x' same
  simp only [same.1]

theorem insertResembles (like : t.Resembles differ t') {e e' : Entry}
    (entries : e.Resembles differ e') (loc : Location) :
    (t.insert loc e).Resembles differ (t'.insert loc e') :=
  rewriteResembles like loc.directory (.cons ⟨rfl, entries⟩ (othersResemble like loc))

theorem eraseResembles (like : t.Resembles differ t') (loc : Location) :
    (t.erase loc).Resembles differ (t'.erase loc) :=
  rewriteResembles like loc.directory (othersResemble like loc)

/-! ## New identities -/

theorem keysResemble (like : t.Resembles differ t') : t.directories.keys = t'.directories.keys := by
  refine List.Perm.eq_of_pairwise ?_ Std.TreeMap.ordered_keys Std.TreeMap.ordered_keys ?_
  · intro directory directory' _ _ less greater
    exact absurd (Nat.lt_trans (Nat.compare_eq_lt.mp less) (Nat.compare_eq_lt.mp greater))
      (Nat.lt_irrefl _)
  · refine (List.perm_ext_iff_of_nodup Std.TreeMap.nodup_keys Std.TreeMap.nodup_keys).mpr ?_
    intro directory
    rw [Std.TreeMap.mem_keys, Std.TreeMap.mem_keys]
    exact like.known directory

theorem directoriesNames (t : Tree) :
    t.directories.toList =
      t.directories.keys.map fun directory => (directory, t.names directory) := by
  rw [← Std.TreeMap.map_fst_toList_eq_keys, List.map_map]
  refine (List.map_congr_left ?_).symm.trans (List.map_id _) |>.symm
  intro x member
  have known := Std.TreeMap.mem_toList_iff_getElem?_eq_some.mp member
  simp only [id, Function.comp, names, Std.TreeMap.getD_eq_getD_getElem?, known, Option.getD_some]

theorem collectResembles {α : Type} (like : t.Resembles differ t')
    {collect : Nat × List (String × Entry) → List α}
    (same : ∀ {directory entries entries'}, Entries.Resemble differ entries entries' →
      collect (directory, entries) = collect (directory, entries')) :
    t.directories.toList.flatMap collect = t'.directories.toList.flatMap collect := by
  rw [directoriesNames, directoriesNames, keysResemble like, List.flatMap_map, List.flatMap_map]
  exact List.flatMap_congr fun directory _ => same (like.names directory)

theorem freshResembles (like : t.Resembles differ t') : t.freshId = t'.freshId := by
  have identities : t.identities = t'.identities := by
    refine collectResembles like fun {directory entries entries'} entries => ?_
    refine congrArg (directory :: ·) ?_
    induction entries with
    | nil => rfl
    | cons first later ih => exact congrArg₂ (· :: ·) first.2.identity ih
  rw [freshId, freshId, identities]

theorem addResembles (like : t.Resembles differ t') (loc : Location) (node : Node) :
    (t.add loc node).Resembles differ (t'.add loc node) := by
  rw [add, add, freshResembles like]
  exact insertResembles like (.same _) loc

/-! ## Paths -/

theorem getNone (like : t.Resembles differ t') {loc : Location} (missing : t.get? loc = none) :
    t'.get? loc = none := by
  have other := getResembles like loc
  rw [missing] at other
  generalize t'.get? loc = found at other
  cases other
  rfl

theorem getSome (like : t.Resembles differ t') {loc : Location} {e : Entry}
    (here : t.get? loc = some e) : ∃ e', t'.get? loc = some e' ∧ e.Resembles differ e' := by
  have other := getResembles like loc
  rw [here] at other
  generalize t'.get? loc = found at other
  cases other with
  | some entries => exact ⟨_, rfl, entries⟩

theorem getPassable (like : t.Resembles differ t') {loc : Location} {e : Entry}
    (here : t.get? loc = some e) (passable : e.passable = true) : t'.get? loc = some e := by
  obtain ⟨e', here', entries⟩ := getSome like here
  cases entries with
  | same => exact here'
  | file => cases passable

theorem getFile (like : t.Resembles differ t') {loc : Location} {id mode : Nat} {content : Content}
    (here : t.get? loc = some ⟨id, .file content mode⟩) :
    ∃ content', t'.get? loc = some ⟨id, .file content' mode⟩ ∧
      Entry.Resembles differ ⟨id, .file content mode⟩ ⟨id, .file content' mode⟩ := by
  obtain ⟨e', here', entries⟩ := getSome like here
  cases entries with
  | same => exact ⟨_, here', .same _⟩
  | file _ _ other => exact ⟨_, here', .file id mode other⟩

theorem walkResembles (like : t.Resembles differ t') (follow : Bool) (links : Nat)
    (way : List Nat) (pieces : List String) :
    Tallies (Goal.Resembles differ) (t.walk follow links way pieces)
      (t'.walk follow links way pieces) := by
  -- Where a walk goes is up to directories and links, and these are the same in both trees.
  fun_induction walk t follow links way pieces with
  | case1 links way => rw [walk]; exact .ok (.inside way)
  | case2 links way piece rest skip ih => rw [walk, if_pos skip]; exact ih
  | case3 links way rest name ih => rw [walk, if_neg name, if_pos rfl]; exact ih
  | case4 links way piece rest name up long =>
    rw [walk, if_neg name, if_neg up, if_pos long]
    exact .error _
  | case5 links way piece rest name up long missing =>
    have same := getNone like missing
    rw [walk]
    simp only [name, up, long, same, if_false]
    exact .error _
  | case6 links way piece rest name up long id here ih =>
    have same := getPassable like here rfl
    rw [walk]
    simp only [name, up, long, same, if_false]
    exact ih
  | case7 links way piece name up long id content mode here =>
    obtain ⟨content', here', entries⟩ := getFile like here
    rw [walk]
    simp only [name, up, long, here', if_true, if_false]
    exact .ok (.at _ entries)
  | case8 links way piece rest name up long id content mode here more =>
    obtain ⟨content', here', _⟩ := getFile like here
    rw [walk]
    simp only [name, up, long, here', if_false, if_neg more]
    exact .error _
  | case9 links way piece rest name up long id target here last =>
    have same := getPassable like here rfl
    rw [walk]
    simp only [name, up, long, same, if_false, if_pos last]
    exact .ok (.at _ (.same _))
  | case10 way piece rest name up long id target here last =>
    have same := getPassable like here rfl
    rw [walk]
    simp only [name, up, long, same, if_false, if_neg last]
    exact .error _
  | case11 way piece rest name up long id target here last links ih =>
    have same := getPassable like here rfl
    rw [walk]
    simp only [name, up, long, same, if_false, if_neg last]
    exact ih

theorem baseResembles (like : t.Resembles differ t') (p : Path) : t.base p = t'.base p := by
  simp only [base, like.present]

theorem resolveResembles (like : t.Resembles differ t') (follow : Bool) (p : Path) :
    Tallies (Goal.Resembles differ) (t.resolve follow p) (t'.resolve follow p) := by
  unfold resolve
  rw [baseResembles like]
  split
  · exact .error _
  · exact walkResembles like ..

theorem slotResembles (like : t.Resembles differ t') (p : Path) : t.slot p = t'.slot p := by
  unfold slot
  rw [baseResembles like]
  split
  · rfl
  · obtain ⟨before, last⟩ := splitLast p.pieces
    have parents := walkResembles like true linkLimit (t'.base p) before
    dsimp only
    generalize t.walk true linkLimit (t'.base p) before = goal at parents
    generalize t'.walk true linkLimit (t'.base p) before = goal' at parents
    cases parents with
    | error why => rfl
    | ok goals => cases goals <;> rfl

/-! ## Calls -/

theorem withPathTallies {α : Type} {alike : α → α → Prop} {call call' : Except Errno α} (p : Path)
    (calls : Tallies alike call call') :
    Tallies alike (withPath p call) (withPath p call') := by
  unfold withPath
  split
  · exact .error _
  · cases calls with
    | ok same => exact .ok same
    | error why => exact .error _

theorem entryResembles (like : t.Resembles differ t') (follow : Bool) (p : Path) :
    Tallies (Entry.Resembles differ) (t.entry follow p) (t'.entry follow p) := by
  refine talliesMap ?_ (resolveResembles like follow p)
  intro goal goal' goals
  cases goals with
  | inside way => exact .same _
  | «at» loc entries => exact entries

theorem statResembles (like : t.Resembles differ t') (p : Path) :
    Tallies (Entry.Resembles differ) (t.stat p) (t'.stat p) :=
  withPathTallies p (entryResembles like true p)

theorem isDirectoryResembles (like : t.Resembles differ t') (p : Path) :
    t.isDirectory p = t'.isDirectory p := by
  have stats := statResembles like p
  unfold isDirectory
  generalize t.stat p = found at stats
  generalize t'.stat p = found' at stats
  cases stats with
  | error why => rfl
  | ok entries => cases entries <;> rfl

theorem fileModeResembles (like : t.Resembles differ t') (p : Path) :
    t.fileMode? p = t'.fileMode? p := by
  have stats := statResembles like p
  unfold fileMode?
  generalize t.stat p = found at stats
  generalize t'.stat p = found' at stats
  cases stats with
  | error why => rfl
  | ok entries => cases entries <;> rfl

theorem readTallies (like : t.Resembles differ t') (alike : Bytes → Bytes → Prop)
    (same : ∀ bytes, alike bytes bytes)
    (bytes : ∀ {content content'}, differ content content' → alike content.bytes content'.bytes)
    (p : Path) : Tallies alike (t.read p) (t'.read p) := by
  have stats := statResembles like p
  unfold read
  generalize t.stat p = found at stats
  generalize t'.stat p = found' at stats
  cases stats with
  | error why => exact .error why
  | @ok e e' entries =>
    cases entries with
    | same =>
      obtain ⟨id, node⟩ := e
      cases node with
      | file content mode => exact .ok (same _)
      | _ => exact .error _
    | file id mode other => exact .ok (bytes other)

theorem readResembles (like : t.Resembles differ t')
    (bytes : ∀ {content content'}, differ content content' → content.bytes = content'.bytes)
    (p : Path) : t.read p = t'.read p := by
  have reads := readTallies like (· = ·) (fun _ => rfl) bytes p
  generalize t.read p = got at reads
  generalize t'.read p = got' at reads
  cases reads with
  | error why => rfl
  | ok same => exact congrArg Except.ok same

theorem mkdirResembles (like : t.Resembles differ t') (p : Path) :
    Tallies (Resembles differ) (t.mkdir p) (t'.mkdir p) := by
  refine withPathTallies p ?_
  rw [slotResembles like]
  cases t'.slot p with
  | error why => exact .error _
  | ok slot =>
    obtain ⟨directory, last, slashed⟩ := slot
    cases last with
    | name name =>
      simp only [bind, Except.bind]
      split
      · exact .error _
      · cases here : t.get? ⟨directory, name⟩ with
        | none =>
          simp only [getNone like here]
          exact .ok (addResembles like _ _)
        | some e =>
          obtain ⟨e', here', _⟩ := getSome like here
          simp only [here']
          exact .error _
    | _ => exact .error _

theorem enterResembles (like : t.Resembles differ t') (p : Path) : t.enter p = t'.enter p := by
  have goals := resolveResembles like true p
  unfold enter
  generalize t.resolve true p = found at goals
  generalize t'.resolve true p = found' at goals
  cases goals with
  | error why => rfl
  | ok goals => cases goals <;> rfl

theorem createResembles (like : t.Resembles differ t') (dir : Path) (name : String) :
    Tallies (fun made made' => made.1 = made'.1 ∧ made.2.Resembles differ made'.2 ∧
      made.2.get? made.1 = made'.2.get? made.1) (t.create dir name) (t'.create dir name) := by
  refine withPathTallies dir ?_
  rw [enterResembles like]
  cases t'.enter dir with
  | error why => exact .error _
  | ok directory =>
    simp only [bind, Except.bind]
    cases here : t.get? ⟨directory, name⟩ with
    | none =>
      simp only [getNone like here]
      refine .ok ⟨rfl, addResembles like _ _, ?_⟩
      simp only [add, getInsert, if_true, freshResembles like]
    | some e =>
      obtain ⟨e', here', _⟩ := getSome like here
      simp only [here']
      exact .error _

theorem setModeResembles (like : t.Resembles differ t') {loc : Location}
    (same : t.get? loc = t'.get? loc) (mode : Nat) :
    (t.setMode loc mode).Resembles differ (t'.setMode loc mode) ∧
      (t.setMode loc mode).get? loc = (t'.setMode loc mode).get? loc := by
  unfold setMode
  rw [same]
  split
  · exact ⟨insertResembles like (.same _) loc, by simp only [getInsert, if_true]⟩
  · exact ⟨like, same⟩

theorem appendResembles (like : t.Resembles differ t') {loc : Location}
    (same : t.get? loc = t'.get? loc) (bytes : Bytes) :
    (t.append loc bytes).Resembles differ (t'.append loc bytes) ∧
      (t.append loc bytes).get? loc = (t'.append loc bytes).get? loc := by
  unfold append
  rw [same]
  split
  · exact ⟨insertResembles like (.same _) loc, by simp only [getInsert, if_true]⟩
  · exact ⟨like, same⟩

theorem takenResembles (like : t.Resembles differ t') (slot : Slot) :
    t.taken slot = t'.taken slot := by
  obtain ⟨directory, last, slashed⟩ := slot
  cases last with
  | name name =>
    have entries := getResembles like ⟨directory, name⟩
    unfold taken
    dsimp only
    generalize t.get? ⟨directory, name⟩ = found at entries
    generalize t'.get? ⟨directory, name⟩ = found' at entries
    cases entries with
    | none => rfl
    | some entries => cases entries <;> rfl
  | _ => rfl

theorem renameResembles (like : t.Resembles differ t') (source : Location) (target : Path) :
    Tallies (Resembles differ) (t.rename source target) (t'.rename source target) := by
  unfold rename
  split
  · exact .error _
  · rw [slotResembles like]
    cases t'.slot target with
    | error why => exact .error _
    | ok slot =>
      simp only [bind, Except.bind]
      rw [takenResembles like]
      cases t'.taken slot with
      | error why => exact .error _
      | ok loc =>
        cases here : t.get? source with
        | none =>
          simp only [getNone like here]
          exact .error _
        | some e =>
          obtain ⟨e', here', entries⟩ := getSome like here
          simp only [here']
          exact .ok (insertResembles (eraseResembles like source) entries loc)

end Tree
end BuildProbe
