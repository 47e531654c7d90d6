import BuildProbe.Proofs.Tree.Paving

/-!
Roads to a directory. What a tree has gained is a road to a directory when it is made of
directories only, and each of them is what some leading part of the directory's path leads to.
Making one more such directory keeps it so, and files can come and go beside it.
-/
namespace BuildProbe

def Path.LeadsTo (part dir : Path) : Prop := part = dir ∨ part.Leads dir

theorem Path.leadsToParent {part above dir : Path} (leads : part.LeadsTo dir)
    (higher : part.parent? = some above) : above.LeadsTo dir := by
  right
  cases leads with
  | inl same => exact same ▸ parentLeads higher
  | inr leads => exact leadsTrans (parentLeads higher) leads

namespace Tree

structure SameWays (t t' : Tree) : Prop where
  present : t'.present = t.present
  same : ∀ {loc e}, e.passable = true → (t'.get? loc = some e ↔ t.get? loc = some e)

section

variable {t t' before : Tree} {dir : Path}

theorem waysRefl (t : Tree) : t.SameWays t := ⟨rfl, fun _ => Iff.rfl⟩

theorem waysInsert {loc : Location} {e : Entry}
    (file : ∀ old, t.get? loc = some old → old.passable = false) (solid : e.passable = false) :
    t.SameWays (t.insert loc e) := by
  refine ⟨rfl, ?_⟩
  intro other new passable
  rw [getInsert]
  split
  · rename_i own
    subst own
    constructor
    · intro same
      cases same
      rw [passable] at solid
      cases solid
    · intro found
      rw [file _ found] at passable
      cases passable
  · exact Iff.rfl

theorem waysErase {loc : Location} (file : ∀ old, t.get? loc = some old → old.passable = false) :
    t.SameWays (t.erase loc) := by
  refine ⟨rfl, ?_⟩
  intro other new passable
  rw [getErase]
  split
  · rename_i own
    subst own
    constructor
    · intro same
      cases same
    · intro found
      rw [file _ found] at passable
      cases passable
  · exact Iff.rfl

theorem waysAppend (t : Tree) (loc : Location) (bytes : Text.Bytes) :
    t.SameWays (t.append loc bytes) := by
  unfold append
  split
  · rename_i id old mode here
    refine waysInsert ?_ rfl
    intro e found
    rw [here] at found
    cases found
    rfl
  · exact waysRefl t

theorem waysSetMode (t : Tree) (loc : Location) (mode : Nat) :
    t.SameWays (t.setMode loc mode) := by
  unfold setMode
  split
  · rename_i id content bits here
    refine waysInsert ?_ rfl
    intro e found
    rw [here] at found
    cases found
    rfl
  · exact waysRefl t

theorem waysInside (ways : t.SameWays t') {p : Path} {way : List Nat}
    (led : t.resolve true p = .ok (.inside way)) : t'.resolve true p = .ok (.inside way) := by
  have routes : t'.Routes t := ⟨ways.present, fun found passable => (ways.same passable).mpr found⟩
  refine resolveBack routes led ?_
  intro loc e ended
  cases ended

theorem resolveMade {part : Path} (made : t.mkdir part = .ok t') :
    ∃ way, t'.resolve true part = .ok (.inside way) ∧ standing way = t.freshId := by
  obtain ⟨loc, place, free, rfl⟩ := mkdirMade made
  obtain ⟨slashed, here⟩ := locateSlot place
  obtain ⟨fit, way, walked, same⟩ := slotInside here
  obtain ⟨stands, _, _⟩ := Slot.mk.injEq .. ▸ same
  obtain ⟨⟨filled, stay, up⟩, k, pieces⟩ := splitLastName (slotName here)
  have short : nameTooLong loc.name = false := by
    obtain ⟨_, call⟩ := withPathOk.mp made
    simp only [here, bind, Except.bind] at call
    split at call <;> try contradiction
    rename_i short
    simpa using short
  have there : (t.add loc .directory).get? ⟨standing way, loc.name⟩ =
      some ⟨t.freshId, .directory⟩ := by
    rw [getAdd, if_pos (by rw [← stands])]
  have slashes : ∀ k links, (t.add loc .directory).walk true links (t.freshId :: way)
      (List.replicate k "") = .ok (.inside (t.freshId :: way)) := by
    intro k links
    induction k with
    | zero => rw [List.replicate_zero, walk]
    | succ k ih => rw [List.replicate_succ, walk, if_pos (.inl rfl), ih]
  have still : (t.add loc .directory).walk true linkLimit (t.base part)
      (splitLast part.pieces).1 = .ok (.inside way) := by
    have found : t.walk true linkLimit (t.base part) (splitLast part.pieces).1 ≠
        .error .notFound := by
      rw [walked]
      intro same
      cases same
    rw [walkGrows (growsAdd free .directory) found, walked]
  refine ⟨t.freshId :: way, ?_, rfl⟩
  rw [resolve, fit]
  simp only
  rw [show part.pieces = _ from pieces]
  refine walkThrough (List.cons_ne_nil _ _) still ?_
  intro links
  rw [walk, if_neg (by simp [filled, stay]), if_neg up, if_neg (by simp [short]), there]
  exact slashes k links

/- Every directory that was added is what some leading part of the path leads to. -/
def Roads (before now : Tree) (dir : Path) : Prop :=
  ∀ {loc e}, before.get? loc = none → now.get? loc = some e → e.isDirectory = true →
    ∃ part way, part.LeadsTo dir ∧ now.resolve true part = .ok (.inside way) ∧ standing way = e.id

theorem roadsRefl (t : Tree) (dir : Path) : t.Roads t dir := by
  intro loc e free found
  rw [free] at found
  cases found

theorem directoryPassable {e : Entry} (directory : e.isDirectory = true) : e.passable = true := by
  obtain ⟨id, node⟩ := e
  cases node with
  | directory => rfl
  | _ => cases directory

theorem roadsWays (roads : before.Roads t dir) (ways : t.SameWays t') : before.Roads t' dir := by
  intro loc e free found directory
  have known := (ways.same (directoryPassable directory)).mp found
  obtain ⟨part, way, leads, led, stands⟩ := roads free known directory
  exact ⟨part, way, leads, waysInside ways led, stands⟩

theorem roadsMkdir {part : Path} (roads : before.Roads t dir) (leads : part.LeadsTo dir)
    (made : t.mkdir part = .ok t') : before.Roads t' dir := by
  obtain ⟨way, led, stands⟩ := resolveMade made
  obtain ⟨loc, _, free, rfl⟩ := mkdirMade made
  intro other e absent found directory
  rw [getAdd] at found
  split at found
  · cases found
    exact ⟨part, way, leads, led, stands⟩
  · obtain ⟨rest, way, leads, led, stands⟩ := roads absent found directory
    have there : t.resolve true rest ≠ .error .notFound := by
      rw [led]
      intro same
      cases same
    exact ⟨rest, way, leads, (resolveGrows (growsAdd free .directory) there).trans led, stands⟩

end

end Tree
end BuildProbe
