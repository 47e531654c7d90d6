import BuildProbe.Proofs.Tree.Arrival

/-!
What each call does when it is not refused: the one location that it is about, what was there,
and the tree that it leaves.
-/
namespace BuildProbe.Tree

open Text (Bytes)

theorem mkdirMade {t t' : Tree} {p : Path} (done : t.mkdir p = .ok t') :
    ∃ loc, t.locate? p = some loc ∧ t.get? loc = none ∧ t' = t.add loc .directory := by
  obtain ⟨_, made⟩ := withPathOk.mp done
  cases here : t.slot p with
  | error why => simp [here, bind, Except.bind] at made
  | ok s =>
    obtain ⟨directory, last, slashed⟩ := s
    simp only [here, bind, Except.bind] at made
    cases last with
    | name name =>
      simp only at made
      split at made <;> try contradiction
      split at made <;> try contradiction
      rename_i free
      cases made
      exact ⟨⟨directory, name⟩, slotLocate here, by simpa using free, rfl⟩
    | _ => cases made

theorem mkdirHere (t : Tree) : t.mkdir .here = .error (.system .alreadyExists) := by
  have fit : unfit? .here = none := by decide +kernel
  have dots : splitLast Path.here.pieces = ([], .dots) := by decide +kernel
  have stays : t.slot .here = .ok ⟨standing t.present, .dots, false⟩ := by
    unfold slot
    simp only [fit, dots]
    rw [walk]
    rfl
  unfold mkdir
  rw [stays]
  rfl

theorem createMade {t t' : Tree} {dir : Path} {name : String} {loc : Location}
    (done : t.create dir name = .ok (loc, t')) :
    t.enter dir = .ok loc.directory ∧ loc.name = name ∧ t.get? loc = none ∧
      t' = t.add loc (.file (.data []) draftMode) := by
  obtain ⟨_, made⟩ := withPathOk.mp done
  cases entered : t.enter dir with
  | error why => simp [entered, bind, Except.bind] at made
  | ok directory =>
    simp only [entered, bind, Except.bind] at made
    split at made <;> try contradiction
    rename_i free
    cases made
    exact ⟨rfl, rfl, by simpa using free, rfl⟩

theorem takenOk {t : Tree} {s : Slot} {loc : Location} (done : t.taken s = .ok loc) :
    s = ⟨loc.directory, .name loc.name, false⟩ ∧ nameTooLong loc.name = false ∧
      ∀ e, t.get? loc = some e → e.isDirectory = false := by
  obtain ⟨directory, last, slashed⟩ := s
  cases last with
  | name name =>
    unfold taken at done
    simp only at done
    split at done <;> try contradiction
    rename_i short
    split at done <;> try contradiction
    rename_i bare
    split at done <;> try contradiction
    rename_i other
    cases done
    refine ⟨by simpa using bare, by simpa using short, ?_⟩
    rintro ⟨id, node⟩ found
    cases node with
    | directory => exact absurd found (other id)
    | _ => rfl
  | _ => cases done

theorem renameMoved {t t' : Tree} {source : Location} {target : Path}
    (done : t.rename source target = .ok t') :
    target.hasNul = false ∧ ∃ loc e, t.slot target = .ok ⟨loc.directory, .name loc.name, false⟩ ∧
      nameTooLong loc.name = false ∧ (∀ old, t.get? loc = some old → old.isDirectory = false) ∧
      t.get? source = some e ∧ t' = (t.erase source).insert loc e := by
  unfold rename at done
  split at done <;> try contradiction
  rename_i plain
  refine ⟨by simpa using plain, ?_⟩
  cases here : t.slot target with
  | error why => simp [here, bind, Except.bind] at done
  | ok s =>
    simp only [here, bind, Except.bind] at done
    cases free : t.taken s with
    | error why => simp [free] at done
    | ok loc =>
      simp only [free] at done
      obtain ⟨same, short, replaceable⟩ := takenOk free
      cases moved : t.get? source with
      | none => simp [moved, throw, throwThe, MonadExceptOf.throw] at done
      | some e =>
        simp only [moved] at done
        cases done
        exact ⟨loc, e, congrArg Except.ok same, short, replaceable, rfl, rfl⟩

theorem getAdd (t : Tree) (loc other : Location) (node : Node) :
    (t.add loc node).get? other = if other = loc then some ⟨t.freshId, node⟩ else t.get? other :=
  getInsert t loc other _

theorem appendMade {t : Tree} {loc : Location} {id mode : Nat} {old : Bytes}
    (there : t.get? loc = some ⟨id, .file (.data old) mode⟩) (bytes : Bytes) :
    t.append loc bytes = t.insert loc ⟨id, .file (.data (old ++ bytes)) mode⟩ := by
  simp only [append, there]

theorem setModeMade {t : Tree} {loc : Location} {id old : Nat} {content : Content}
    (there : t.get? loc = some ⟨id, .file content old⟩) (mode : Nat) :
    t.setMode loc mode = t.insert loc ⟨id, .file content mode⟩ := by
  simp only [setMode, there]

end BuildProbe.Tree
