import BuildProbe.Tree.Layout

/-!
Trees that grow. A tree has grown out of another one when every entry of that one is still where
it was. Whatever a path led to before, it leads to afterwards: a walk can only end otherwise if
it had ended for want of an entry. Reading, entering and finding the place of a name follow.
-/
namespace BuildProbe.Tree

open Text (Bytes)

structure Grows (t t' : Tree) : Prop where
  present : t'.present = t.present
  kept : ∀ {loc e}, t.get? loc = some e → t'.get? loc = some e

theorem growsRefl (t : Tree) : t.Grows t := ⟨rfl, id⟩

theorem growsTrans {t t' t'' : Tree} (first : t.Grows t') (second : t'.Grows t'') : t.Grows t'' :=
  ⟨second.present.trans first.present, fun found => second.kept (first.kept found)⟩

theorem growsAdd {t : Tree} {loc : Location} (free : t.get? loc = none) (node : Node) :
    t.Grows (t.add loc node) := by
  refine ⟨rfl, ?_⟩
  intro other e found
  have apart : other ≠ loc := by
    intro same
    rw [same, free] at found
    cases found
  rw [add, getInsert, if_neg apart]
  exact found

theorem walkGrows {t t' : Tree} (grows : t.Grows t') {follow : Bool} {links : Nat} {way : List Nat}
    {pieces : List String} (found : t.walk follow links way pieces ≠ .error .notFound) :
    t'.walk follow links way pieces = t.walk follow links way pieces := by
  fun_induction walk t follow links way pieces with
  | case1 => rw [walk]
  | case5 => exact absurd rfl found
  | _ =>
    rw [walk]
    simp_all [grows.kept]

theorem baseGrows {t t' : Tree} (grows : t.Grows t') (p : Path) : t'.base p = t.base p := by
  simp only [base, grows.present]

theorem resolveGrows {t t' : Tree} (grows : t.Grows t') {follow : Bool} {p : Path}
    (found : t.resolve follow p ≠ .error .notFound) : t'.resolve follow p = t.resolve follow p := by
  unfold resolve at found ⊢
  split
  · rfl
  · rename_i fit
    simp only [fit] at found
    rw [baseGrows grows]
    exact walkGrows grows found

theorem slotGrows {t t' : Tree} (grows : t.Grows t') {p : Path}
    (found : t.slot p ≠ .error .notFound) : t'.slot p = t.slot p := by
  unfold slot at found ⊢
  split
  · rfl
  · rename_i fit
    simp only [fit] at found
    have before : t.walk true linkLimit (t.base p) (splitLast p.pieces).1 ≠ .error .notFound := by
      intro missing
      simp [missing] at found
    rw [baseGrows grows]
    simp only [walkGrows grows before]

theorem locateSlot {t : Tree} {p : Path} {loc : Location} (place : t.locate? p = some loc) :
    ∃ slashed, t.slot p = .ok ⟨loc.directory, .name loc.name, slashed⟩ := by
  unfold locate? at place
  split at place <;> try contradiction
  rename_i directory name slashed here
  cases Option.some.inj place
  exact ⟨slashed, here⟩

theorem slotLocate {t : Tree} {p : Path} {directory : Nat} {name : String} {slashed : Bool}
    (here : t.slot p = .ok ⟨directory, .name name, slashed⟩) :
    t.locate? p = some ⟨directory, name⟩ := by
  simp only [locate?, here]

theorem locateGrows {t t' : Tree} (grows : t.Grows t') {p : Path} {loc : Location}
    (place : t.locate? p = some loc) : t'.locate? p = some loc := by
  obtain ⟨slashed, here⟩ := locateSlot place
  have found : t.slot p ≠ .error .notFound := by rw [here]; exact nofun
  exact slotLocate ((slotGrows grows found).trans here)

theorem withPathOk {p : Path} {call : Except Errno α} {result : α} :
    withPath p call = .ok result ↔ p.hasNul = false ∧ call = .ok result := by
  unfold withPath
  constructor
  · intro done
    split at done
    · cases done
    · rename_i plain
      cases call with
      | error why => cases done
      | ok made => exact ⟨by simpa using plain, congrArg Except.ok (Except.ok.inj done)⟩
  · rintro ⟨plain, rfl⟩
    rw [plain]
    rfl

theorem statOk {t : Tree} {p : Path} {e : Entry} :
    t.stat p = .ok e ↔ p.hasNul = false ∧ ∃ goal, t.resolve true p = .ok goal ∧ goal.entry = e := by
  unfold stat entry
  rw [withPathOk]
  cases t.resolve true p <;> simp [Except.map]

theorem statGrows {t t' : Tree} (grows : t.Grows t') {p : Path} {e : Entry}
    (there : t.stat p = .ok e) : t'.stat p = .ok e := by
  obtain ⟨plain, goal, led, same⟩ := statOk.mp there
  have found : t.resolve true p ≠ .error .notFound := by rw [led]; exact nofun
  have still := resolveGrows grows found
  exact statOk.mpr ⟨plain, goal, still.trans led, same⟩

theorem readOk {t : Tree} {p : Path} {bytes : Bytes} :
    t.read p = .ok bytes ↔
      ∃ id content mode, t.stat p = .ok ⟨id, .file content mode⟩ ∧ content.bytes = bytes := by
  unfold read
  cases t.stat p with
  | error why => simp [bind, Except.bind]
  | ok e =>
    obtain ⟨id, node⟩ := e
    cases node with
    | file content mode =>
      constructor
      · intro same
        exact ⟨id, content, mode, rfl, Except.ok.inj same⟩
      · rintro ⟨_, _, _, there, same⟩
        cases there
        exact congrArg Except.ok same
    | _ => simp [bind, Except.bind, throw, throwThe, MonadExceptOf.throw]

theorem readGrows {t t' : Tree} (grows : t.Grows t') {p : Path}
    (found : t.read p ≠ .error (.system .notFound)) : t'.read p = t.read p := by
  cases nul : p.hasNul with
  | true => simp [read, stat, withPath, nul, bind, Except.bind]
  | false =>
    have led : t.resolve true p ≠ .error .notFound := by
      intro missing
      have unread : t.read p = .error (.system .notFound) := by
        simp only [read, stat, withPath, entry, nul, missing]
        rfl
      exact found unread
    simp only [read, stat, entry, resolveGrows grows led]

theorem fileModeSome {t : Tree} {p : Path} {mode : Nat} :
    t.fileMode? p = some mode ↔ ∃ id content, t.stat p = .ok ⟨id, .file content mode⟩ := by
  unfold fileMode?
  cases t.stat p with
  | error why => simp
  | ok e =>
    obtain ⟨id, node⟩ := e
    cases node <;> simp

theorem fileModeGrows {t t' : Tree} (grows : t.Grows t') {p : Path} {mode : Nat}
    (found : t.fileMode? p = some mode) : t'.fileMode? p = some mode := by
  obtain ⟨id, content, there⟩ := fileModeSome.mp found
  exact fileModeSome.mpr ⟨id, content, statGrows grows there⟩

end BuildProbe.Tree
