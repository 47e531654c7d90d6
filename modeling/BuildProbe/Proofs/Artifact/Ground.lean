import BuildProbe.Proofs.Artifact.Company

/-!
A writing seen without the file of its own. Whoever looks at other paths may take that file away
from the tree: then its name does not matter, and the writing's deeds are those of a draft with any
other name. So a path that goes elsewhere is as it was when the writing has finished, even if the
file's name is one of its own pieces.
-/
namespace BuildProbe.Writing

open Text (Bytes)

def ground (w : Writing) (t : Tree) : Tree :=
  match w.file? with
  | some file => t.erase file
  | none => t

variable {d : Draft} {fate : Except WriteFailure Outcome} {bits : Nat} {t t' : Tree} {w w' : Writing}

theorem stageDrafts {file : Location} (stage : Stage d fate bits t w) (own : w.file? = some file) :
    ∃ bytes mode, Drafts d t file bytes mode := by
  cases w <;> cases own
  case filling => obtain ⟨_, bytes, drafts, _⟩ := stage; exact ⟨bytes, _, drafts⟩
  case syncing => exact ⟨_, _, stage.2⟩
  case examining => exact ⟨_, _, stage.2⟩
  case permitting => exact ⟨_, _, stage.2.1⟩
  case replacing => obtain ⟨_, mode, drafts, _⟩ := stage; exact ⟨_, mode, drafts⟩
  case discarding => obtain ⟨_, _, bytes, mode, drafts⟩ := stage; exact ⟨bytes, mode, drafts⟩

theorem groundGet (underway : Underway d fate bits t w) (loc : Location) :
    (w.ground t).get? loc = if loc.name = d.name then none else t.get? loc := by
  unfold ground
  split
  · rename_i file own
    obtain ⟨bytes, mode, way, id, arrived, free, rfl, there⟩ := stageDrafts underway.stage own
    rw [Tree.getErase]
    by_cases same : loc = ⟨Tree.standing way, d.name⟩
    · rw [if_pos same, if_pos (congrArg Location.name same)]
    · rw [if_neg same]
      split
      · rename_i named
        cases found : t.get? loc with
        | none => rfl
        | some e =>
          have other := underway.hidden found named
          rw [own] at other
          exact absurd (Option.some.inj other).symm same
      · rfl
  · rename_i bare
    split
    · rename_i named
      cases found : t.get? loc with
      | none => rfl
      | some e =>
        have other := underway.hidden found named
        rw [bare] at other
        cases other
    · rfl

theorem groundPresent (w : Writing) (t : Tree) : (w.ground t).present = t.present := by
  unfold ground
  split <;> rfl

theorem groundSpares (underway : Underway d fate bits t w) : t.Spares d.name (w.ground t) := by
  refine ⟨groundPresent w t, ?_, fun other => (groundGet underway _).trans (if_neg other)⟩
  intro loc id found
  have other : loc.name ≠ d.name := by
    intro named
    obtain ⟨bytes, mode, way, id, arrived, free, rfl, there⟩ :=
      stageDrafts underway.stage (underway.hidden found named)
    rw [there] at found
    cases found
  exact (groundGet underway _).trans ((if_neg other).trans found)

theorem groundToward (fresh : d.Fresh) (underway : Underway d fate bits t w) :
    (w.ground t).toward d.path.directory = t.toward d.path.directory :=
  Tree.towardSpared (groundSpares underway) underway.straight.onward (freshDirectory fresh)

theorem groundSpot (fresh : d.Fresh) (underway : Underway d fate bits t w) :
    (w.ground t).spot d.path = t.spot d.path :=
  Tree.spotSpared (groundSpares underway) underway.straight.onward (freshDirectory fresh)
    (freshName fresh underway.straight.named)

theorem groundStraight (fresh : d.Fresh) (underway : Underway d fate bits t w) :
    (w.ground t).Straight d.path :=
  ⟨underway.straight.named, groundToward fresh underway ▸ underway.straight.onward,
    groundSpot fresh underway ▸ underway.straight.solid⟩

theorem groundAlike (underway : Underway d fate bits t w) (stays : Underway d fate bits t' w')
    (present : t'.present = t.present)
    (others : ∀ {loc : Location}, loc.name ≠ d.name → t'.get? loc = t.get? loc) (name : String) :
    Deed { d with name := name } fate bits (w.ground t) (w'.ground t') := by
  have same : ∀ loc, (w'.ground t').get? loc = (w.ground t).get? loc := by
    intro loc
    rw [groundGet underway, groundGet stays]
    split
    · rfl
    · rename_i other
      exact others other
  refine .drafted ⟨?_, fun found => (same _).trans found, fun _ => same _⟩
  rw [groundPresent, groundPresent, present]

theorem aheadBare {way : List Nat} {m : String} {l : List String} {outlook : Tree.Outlook}
    (underway : Underway d fate bits t w)
    (ahead : t.toward d.path.directory = ⟨way, m :: l, outlook⟩) : w.file? = none := by
  cases own : w.file? with
  | none => rfl
  | some file =>
    obtain ⟨bytes, mode, way, id, arrived, _⟩ := stageDrafts underway.stage own
    rw [ahead] at arrived
    cases arrived

theorem pavedBare {loc : Location} (underway : Underway d fate bits t w)
    (stays : Underway d fate bits (t.add loc .directory) w') (bare : w.file? = none) :
    w'.file? = none := by
  cases own : w'.file? with
  | none => rfl
  | some file =>
    obtain ⟨bytes, mode, way, id, arrived, _, rfl, there⟩ := stageDrafts stays.stage own
    rw [Tree.getAdd] at there
    split at there
    · cases there
    · have hidden := underway.hidden there rfl
      rw [bare] at hidden
      cases hidden

theorem groundDeed (fresh : d.Fresh) (underway : Underway d fate bits t w)
    (stays : Underway d fate bits t' w') (deed : Deed d fate bits t t') (name : String) :
    Deed { d with name := name } fate bits (w.ground t) (w'.ground t') := by
  have present := deedPresent deed
  cases deed with
  | idle same => exact groundAlike underway stays present (fun _ => by rw [same]) name
  | drafted spares => exact groundAlike underway stays present spares.others name
  | paved ahead free made =>
    subst made
    have bare := aheadBare underway ahead
    rw [ground, ground, bare, pavedBare underway stays bare]
    exact .paved ahead free rfl
  | placed written free arrived lands present' directories there others =>
    obtain ⟨id, there⟩ := there
    have apart := freshName fresh underway.straight.named
    refine .placed written free ((groundToward fresh underway).trans arrived)
      ((Tree.landingView (groundSpot fresh underway)).trans lands) ?_ ?_
      ⟨id, (groundGet stays _).trans ((if_neg apart).trans there)⟩ ?_
    · rw [groundPresent, groundPresent, present]
    · intro loc id found
      rw [groundGet underway] at found
      split at found
      · cases found
      · rename_i other
        exact (groundGet stays _).trans ((if_neg other).trans (directories found))
    · intro loc _ elsewhere
      rw [groundGet underway, groundGet stays]
      split
      · rfl
      · rename_i other
        exact others other elsewhere

/- Paths that go elsewhere, with what they lead to as it was in an earlier tree. -/
structure Watch (d : Draft) (paths : List Path) (before now : Tree) : Prop where
  aside : ∀ p ∈ paths, Aside d now p
  spot : ∀ p ∈ paths, now.spot p = before.spot p
  outlook : ∀ p ∈ paths,
    (now.toward p.directory).outlook = (before.toward p.directory).outlook
  apart : ∀ p ∈ paths, ∀ q ∈ paths, p ≠ q → now.Apart p q

theorem watchDeed {before : Tree} {paths : List Path} (deed : Deed d fate bits t t')
    (own : t'.Straight d.path) (watch : Watch d paths before t) : Watch d paths before t' := by
  refine ⟨fun p member => ?_, fun p member => ?_, fun p member => ?_,
    fun p member q member' other => ?_⟩
  · have aside := watch.aside p member
    have party : Party d t d.path := .own rfl aside.fresh aside.settled aside.own
    exact ⟨aside.fresh, aside.strange, deedSettled deed aside.settled, own,
      deedStraight deed aside, deedApart deed (.aside aside) party aside.apart⟩
  · exact (deedSpot deed (watch.aside p member)).trans (watch.spot p member)
  · exact (deedFurther deed (.aside (watch.aside p member)) (Path.ladderHere _)).1.trans
      (watch.outlook p member)
  · exact deedApart deed (.aside (watch.aside p member)) (.aside (watch.aside q member'))
      (watch.apart p member q member' other)

theorem finishWatch {before : Tree} {paths : List Path} {name : String} (fresh : d.Fresh)
    (underway : Underway d fate bits t w)
    (watch : Watch { d with name := name } paths before (w.ground t)) :
    Watch { d with name := name } paths before (finish d .sound t w).1 := by
  fun_induction finish d .sound t w with
  | case1 t w result ended =>
    cases w <;> cases ended
    exact watch
  | case2 t w going ih =>
    obtain ⟨stays, deed⟩ := stepUnderway fresh underway
    have own := groundStraight fresh stays
    exact ih stays (watchDeed (groundDeed fresh underway stays deed name) own watch)

end BuildProbe.Writing
