import BuildProbe.Proofs.Artifact.Underway

/-!
Writings in company. What one writing does leaves another one underway, as long as their files are
different ones and neither path leads through the other's file: a directory that the other has made
takes it further along its own way, and everything else happens elsewhere.
-/
namespace BuildProbe

open Text (Bytes)

namespace Tree

def Approach.reach (a : Approach) (name : String) : List String :=
  if a.outlook = .clear then a.ahead ++ [name] else a.ahead

def Approach.Through (a b : Approach) (name other : String) : Prop :=
  b.outlook = .clear ∧ standing b.way = standing a.way ∧ b.ahead ++ [other] <+: a.reach name

/- A path leads to or through the place that another one leads to. -/
def Under (t : Tree) (p q : Path) : Prop :=
  (t.toward p.directory).Through (t.toward q.directory) (lastName p) (lastName q)

structure Apart (t : Tree) (p q : Path) : Prop where
  left : ¬ t.Under p q
  right : ¬ t.Under q p

theorem apartSwap {t : Tree} {p q : Path} (apart : t.Apart p q) : t.Apart q p :=
  ⟨apart.right, apart.left⟩

theorem reachAhead {a : Approach} {m : String} {l : List String} (ahead : a.ahead = m :: l)
    (name : String) : ∃ rest, a.reach name = m :: rest := by
  unfold Approach.reach
  rw [ahead]
  split
  · exact ⟨_, rfl⟩
  · exact ⟨l, rfl⟩

theorem enteredCases (a : Approach) (loc : Location) (id : Nat) :
    a.entered loc id = a ∨ ∃ m l, a.ahead = m :: l ∧ ⟨standing a.way, m⟩ = loc ∧
      a.entered loc id = ⟨id :: a.way, l, a.outlook⟩ := by
  unfold Approach.entered
  split
  · exact .inl rfl
  · rename_i m l ahead
    by_cases here : (⟨standing a.way, m⟩ : Location) = loc
    · exact .inr ⟨m, l, ahead, here, if_pos here⟩
    · exact .inl (if_neg here)

theorem throughEntered {a b : Approach} {name other : String} {loc : Location} {id : Nat}
    (oldLeft : standing a.way ≠ id) (oldRight : standing b.way ≠ id)
    (through : (a.entered loc id).Through (b.entered loc id) name other) :
    a.Through b name other := by
  obtain ⟨clear, meet, leads⟩ := through
  rw [enteredOutlook] at clear
  refine ⟨clear, ?_⟩
  rcases enteredCases a loc id with sameA | ⟨m, l, aheadA, hereA, enteredA⟩
  · rcases enteredCases b loc id with sameB | ⟨_, _, _, _, enteredB⟩
    · rw [sameA, sameB] at meet leads
      exact ⟨meet, leads⟩
    · rw [sameA, enteredB] at meet
      exact absurd meet.symm oldLeft
  · rcases enteredCases b loc id with sameB | ⟨m', l', aheadB, hereB, enteredB⟩
    · rw [enteredA, sameB] at meet
      exact absurd meet oldRight
    · obtain ⟨stand, rfl⟩ := Location.mk.inj (hereA.trans hereB.symm)
      rw [enteredA, enteredB] at leads
      refine ⟨stand.symm, ?_⟩
      unfold Approach.reach at leads ⊢
      rw [aheadA, aheadB]
      split at leads
      · rename_i wide
        rw [if_pos wide]
        exact List.cons_prefix_cons.mpr ⟨rfl, leads⟩
      · rename_i narrow
        rw [if_neg narrow]
        exact List.cons_prefix_cons.mpr ⟨rfl, leads⟩

def Further (a a' : Approach) : Prop := a'.outlook = a.outlook ∧ (a.ahead = [] → a' = a)

theorem furtherEntered (a : Approach) (loc : Location) (id : Nat) :
    Further a (a.entered loc id) := by
  refine ⟨enteredOutlook a loc id, fun arrived => ?_⟩
  rw [Approach.entered, arrived]

theorem furtherSame {a a' : Approach} (same : a' = a) : Further a a' :=
  ⟨congrArg Approach.outlook same, fun _ => same⟩

end Tree

namespace Writing

variable {d : Draft} {fate : Except WriteFailure Outcome} {bits : Nat} {t t' : Tree} {p : Path}

/- A path that goes elsewhere than a draft, and does not mention the draft's own name. -/
structure Aside (d : Draft) (t : Tree) (p : Path) : Prop where
  fresh : d.Fresh
  strange : d.name ∉ p.pieces
  settled : t.Settled
  own : t.Straight d.path
  straight : t.Straight p
  apart : t.Apart p d.path

theorem strangeDirectory (aside : Aside d t p) : d.name ∉ p.directory.pieces :=
  directoryApart aside.fresh.proper.2.1 aside.strange

theorem strangeName (aside : Aside d t p) : Tree.lastName p ≠ d.name := by
  intro same
  obtain ⟨_, _, k, pieces⟩ := Tree.namedFilled aside.straight.named
  refine aside.strange ?_
  rw [pieces, ← same]
  exact List.mem_append_right _ List.mem_cons_self

theorem placeAhead (aside : Aside d t p) {way : List Nat}
    (arrived : t.toward d.path.directory = ⟨way, [], .clear⟩) {m : String} {l : List String}
    (ahead : (t.toward p.directory).ahead = m :: l) :
    (⟨Tree.standing (t.toward p.directory).way, m⟩ : Location) ≠
      ⟨Tree.standing way, Tree.lastName d.path⟩ := by
  intro same
  obtain ⟨stand, rfl⟩ := Location.mk.inj same
  obtain ⟨rest, reach⟩ := Tree.reachAhead ahead (Tree.lastName p)
  refine aside.apart.left ?_
  rw [Tree.Under, arrived]
  refine ⟨rfl, stand.symm, ?_⟩
  rw [reach]
  exact List.cons_prefix_cons.mpr ⟨rfl, List.nil_prefix⟩

inductive Party (d : Draft) (t : Tree) (p : Path) : Prop where
  | own (same : p = d.path) (fresh : d.Fresh) (settled : t.Settled) (straight : t.Straight d.path)
  | aside (aside : Aside d t p)

namespace Party

theorem settled (party : Party d t p) : t.Settled := by
  cases party with
  | own same fresh settled straight => exact settled
  | aside aside => exact aside.settled

theorem onward (party : Party d t p) : (t.toward p.directory).outlook ≠ .astray := by
  cases party with
  | own same fresh settled straight => exact same ▸ straight.onward
  | aside aside => exact aside.straight.onward

theorem strange (party : Party d t p) : d.name ∉ p.directory.pieces := by
  cases party with
  | own same fresh settled straight => exact same ▸ freshDirectory fresh
  | aside aside => exact strangeDirectory aside

theorem front (party : Party d t p) {way : List Nat}
    (arrived : t.toward d.path.directory = ⟨way, [], .clear⟩) {m : String} {l : List String}
    (ahead : (t.toward p.directory).ahead = m :: l) :
    (⟨Tree.standing (t.toward p.directory).way, m⟩ : Location) ≠
      ⟨Tree.standing way, Tree.lastName d.path⟩ := by
  cases party with
  | own same fresh settled straight =>
    rw [same, arrived] at ahead
    cases ahead
  | aside aside => exact placeAhead aside arrived ahead

end Party

theorem deedSteady (deed : Deed d fate bits t t') :
    (∃ way m l outlook, t.toward d.path.directory = ⟨way, m :: l, outlook⟩ ∧
      t' = t.add ⟨Tree.standing way, m⟩ .directory) ∨
    ∀ {p}, Party d t p → ∀ {above : Path} {rungs}, above.Ladder rungs p.directory →
      t'.toward above = t.toward above := by
  have strange : ∀ {p}, Party d t p → ∀ {above : Path} {rungs}, above.Ladder rungs p.directory →
      d.name ∉ above.pieces := by
    intro p party above rungs ladder member
    obtain ⟨_, lower, pieces⟩ := Path.ladderPieces ladder
    refine party.strange ?_
    rw [pieces]
    exact List.mem_append_left _ member
  cases deed with
  | idle same => exact .inr fun _ _ _ _ => by rw [same]
  | paved ahead free made => exact .inl ⟨_, _, _, _, ahead, made⟩
  | drafted spares =>
    exact .inr fun party _ _ ladder =>
      Tree.towardSpared spares (ladderOnward ladder party.onward) (strange party ladder)
  | placed written free arrived lands present directories there others =>
    obtain ⟨id, there⟩ := there
    refine .inr fun {p} party above rungs ladder => ?_
    refine Tree.towardPlaced present directories ⟨_, _, _, there⟩ others
      (ladderOnward ladder party.onward) (strange party ladder) fun m l ahead => ?_
    obtain ⟨l', outlook', same⟩ := ladderAhead ladder
      (show t.toward above = ⟨(t.toward above).way, m :: l, (t.toward above).outlook⟩ by rw [← ahead])
    have last : (t.toward p.directory).ahead = m :: l' := by rw [same]
    have stand := party.front arrived last
    rw [same] at stand
    exact stand

theorem deedFurther (deed : Deed d fate bits t t') (party : Party d t p) {above : Path}
    {rungs : List Path} (ladder : above.Ladder rungs p.directory) :
    Tree.Further (t.toward above) (t'.toward above) := by
  rcases deedSteady deed with ⟨way, m, l, outlook, ahead, rfl⟩ | steady
  · have known := aheadKnown party.settled ahead
    rw [Tree.towardEntered (aheadOwn ahead).1 known (ladderOnward ladder party.onward)]
    exact Tree.furtherEntered ..
  · exact Tree.furtherSame (steady party ladder)

theorem pavedElsewhere (aside : Aside d t p) {way : List Nat} {m : String} {l : List String}
    {outlook : Tree.Outlook} (ahead : t.toward d.path.directory = ⟨way, m :: l, outlook⟩) :
    t.place? p ≠ some ⟨Tree.standing way, m⟩ := by
  intro place
  unfold Tree.place? at place
  split at place <;> try contradiction
  rename_i way' arrived
  obtain ⟨stand, name⟩ := Location.mk.inj (Option.some.inj place)
  refine aside.apart.right ?_
  rw [Tree.Under, arrived, ahead]
  refine ⟨rfl, stand, ?_⟩
  have headed : (⟨way, m :: l, outlook⟩ : Tree.Approach).ahead = m :: l := rfl
  obtain ⟨rest, reach⟩ := Tree.reachAhead headed (Tree.lastName d.path)
  rw [reach, name]
  exact List.cons_prefix_cons.mpr ⟨rfl, List.nil_prefix⟩

theorem deedSpot (deed : Deed d fate bits t t') (aside : Aside d t p) : t'.spot p = t.spot p := by
  cases deed with
  | idle same => rw [same]
  | paved ahead free made =>
    have known := aheadKnown aside.settled ahead
    rw [made]
    exact Tree.spotEntered (aheadOwn ahead).1 known aside.straight.onward
      (pavedElsewhere aside ahead)
  | drafted spares =>
    exact Tree.spotSpared spares aside.straight.onward (strangeDirectory aside) (strangeName aside)
  | @placed way written free arrived lands present directories there others =>
    obtain ⟨id, there⟩ := there
    have toward := Tree.towardPlaced present directories ⟨_, _, _, there⟩ others
      aside.straight.onward (strangeDirectory aside) fun m l ahead => placeAhead aside arrived ahead
    rw [Tree.spot, Tree.spot, Tree.place?, Tree.place?, toward]
    split
    · rename_i way' arrived'
      refine others (strangeName aside) fun same => ?_
      obtain ⟨stand, name⟩ := Location.mk.inj same
      refine aside.apart.left ?_
      rw [Tree.Under, arrived, arrived']
      refine ⟨rfl, stand.symm, ?_⟩
      rw [← name]
      exact List.prefix_refl _
    · rfl

theorem deedStraight (deed : Deed d fate bits t t') (aside : Aside d t p) : t'.Straight p := by
  refine ⟨aside.straight.named, ?_, ?_⟩
  · rw [(deedFurther deed (.aside aside) (Path.ladderHere _)).1]
    exact aside.straight.onward
  · rw [deedSpot deed aside]
    exact aside.straight.solid

theorem knownStanding {t : Tree} (settled : t.Settled) (p : Path) :
    t.Known (Tree.standing (t.toward p).way) :=
  Tree.standingKnown (Tree.towardKnown settled p)

theorem deedApart (deed : Deed d fate bits t t') {q : Path} (left : Party d t p)
    (right : Party d t q) (apart : t.Apart p q) : t'.Apart p q := by
  rcases deedSteady deed with ⟨way, m, l, outlook, ahead, rfl⟩ | steady
  · have known := aheadKnown left.settled ahead
    have here := Tree.towardEntered (aheadOwn ahead).1 known left.onward
    have there := Tree.towardEntered (aheadOwn ahead).1 known right.onward
    have oldHere := Tree.knownOld (knownStanding left.settled p.directory)
    have oldThere := Tree.knownOld (knownStanding left.settled q.directory)
    refine ⟨fun under => apart.left ?_, fun under => apart.right ?_⟩
    · rw [Tree.Under, here, there] at under
      exact Tree.throughEntered oldHere oldThere under
    · rw [Tree.Under, here, there] at under
      exact Tree.throughEntered oldThere oldHere under
  · have here := steady left (Path.ladderHere _)
    have there := steady right (Path.ladderHere _)
    refine ⟨fun under => apart.left ?_, fun under => apart.right ?_⟩
    · rwa [Tree.Under, here, there] at under
    · rwa [Tree.Under, here, there] at under

theorem deedSettled (deed : Deed d fate bits t t') (settled : t.Settled) : t'.Settled := by
  cases deed with
  | idle same => exact same ▸ settled
  | paved ahead free made => exact made ▸ Tree.settledAdd (aheadOwn ahead).1 settled
  | drafted spares =>
    intro id member
    exact Tree.knownSpared spares.directories (settled id (spares.present ▸ member))
  | placed written free arrived lands present directories there others =>
    intro id member
    exact Tree.knownSpared directories (settled id (present ▸ member))

theorem deedPresent (deed : Deed d fate bits t t') : t'.present = t.present := by
  cases deed with
  | idle same => rw [same]
  | paved ahead free made => rw [made]; rfl
  | drafted spares => exact spares.present
  | placed written free arrived lands present directories there others => exact present

theorem deedKnown (deed : Deed d fate bits t t') {id : Nat} (known : t.Known id) : t'.Known id := by
  cases deed with
  | idle same => exact same ▸ known
  | paved ahead free made =>
    rw [made]
    exact Tree.knownSpared (Tree.growsAdd (aheadOwn ahead).1 _).kept known
  | drafted spares => exact Tree.knownSpared spares.directories known
  | placed written free arrived lands present directories there others =>
    exact Tree.knownSpared directories known

structure Strangers (d e : Draft) : Prop where
  left : d.Fresh
  right : e.Fresh
  names : d.name ≠ e.name
  leftStrange : d.name ∉ e.path.pieces
  rightStrange : e.name ∉ d.path.pieces

theorem deedKeeps (deed : Deed d fate bits t t') (named : Tree.Named d.path) {loc : Location}
    (other : loc.name ≠ d.name) (strange : loc.name ∉ d.path.pieces) (proper : loc.name ≠ ".") :
    t'.get? loc = t.get? loc := by
  cases deed with
  | idle same => rw [same]
  | @paved way m l outlook ahead free made =>
    obtain ⟨_, member⟩ := aheadOwn ahead
    have elsewhere : loc ≠ ⟨Tree.standing way, m⟩ := by
      rintro rfl
      exact directoryApart proper strange member
    rw [made, Tree.getAdd, if_neg elsewhere]
  | drafted spares => exact spares.others other
  | placed written free arrived lands present directories there others =>
    refine others other ?_
    rintro rfl
    obtain ⟨_, _, k, pieces⟩ := Tree.namedFilled named
    refine strange ?_
    rw [pieces]
    exact List.mem_append_right _ List.mem_cons_self

section

variable {e : Draft} {fate' : Except WriteFailure Outcome} {bits' : Nat} {w : Writing}

theorem draftsBeside (deed : Deed d fate bits t t') (aside : Aside d t e.path)
    (strangers : Strangers d e) {file : Location} {bytes : Bytes} {mode : Nat}
    (drafts : Drafts e t file bytes mode) :
    Drafts e t' file bytes mode := by
  obtain ⟨way, id, arrived, free, rfl, there⟩ := drafts
  have further := deedFurther deed (.aside aside) (Path.ladderHere _)
  have same := further.2 (by rw [arrived])
  refine ⟨way, id, same.trans arrived, free, rfl, ?_⟩
  exact (deedKeeps deed aside.own.named (Ne.symm strangers.names) strangers.rightStrange
    strangers.right.proper.2.1).trans there

theorem dueBeside (deed : Deed d fate bits t t') (aside : Aside d t e.path)
    (due : Due e fate' bits' t) : Due e fate' bits' t' :=
  dueView due (deedFurther deed (.aside aside) (Path.ladderHere _)).1 (deedSpot deed aside)

theorem openBeside (deed : Deed d fate bits t t') (aside : Aside d t e.path)
    (opens : t.Open e.path.directory) : t'.Open e.path.directory := by
  rw [Tree.Open, (deedFurther deed (.aside aside) (Path.ladderHere _)).1]
  exact opens

theorem arrivesBeside (deed : Deed d fate bits t t') (aside : Aside d t e.path) {above : Path}
    {rungs : List Path} (ladder : above.Ladder rungs e.path.directory) (arrives : t.Arrives above) :
    t'.Arrives above := by
  obtain ⟨way, arrived⟩ := arrives
  exact ⟨way, ((deedFurther deed (.aside aside) ladder).2 (by rw [arrived])).trans arrived⟩

theorem refusesBeside (deed : Deed d fate bits t t') (aside : Aside d t e.path) {above : Path}
    {rungs : List Path} (ladder : above.Ladder rungs e.path.directory) {why : Refusal}
    (refuses : t.Refuses above why) : t'.Refuses above why := by
  refine refuses.imp_right fun ⟨free, ended, refused⟩ => ⟨free, ?_⟩
  rw [(deedFurther deed (.aside aside) ladder).2 ended]
  exact ⟨ended, refused⟩

theorem stageBeside (deed : Deed d fate bits t t') (aside : Aside d t e.path)
    (strangers : Strangers d e) (stage : Stage e fate' bits' t w) : Stage e fate' bits' t' w := by
  have further := deedFurther deed (.aside aside) (Path.ladderHere _)
  have spot := deedSpot deed aside
  cases w with
  | comparing =>
    exact ⟨(Tree.fateView further.1 spot).trans stage.1, (Tree.bitsView spot).trans stage.2⟩
  | climbing dir missing =>
    obtain ⟨due, trimmed, ladder, lasting⟩ := stage
    exact ⟨dueBeside deed aside due, trimmed, ladder, lasting.imp_right (openBeside deed aside)⟩
  | confirming dir missing why =>
    obtain ⟨due, filled, ladder, lasting, met⟩ := stage
    refine ⟨dueBeside deed aside due, filled, ladder, lasting.imp_right (openBeside deed aside), ?_⟩
    refine met.imp (.imp_right (arrivesBeside deed aside ladder)) fun ⟨refuses, hindered⟩ => ?_
    exact ⟨refusesBeside deed aside ladder refuses,
      (Tree.hindranceView further.1).trans hindered⟩
  | descending missing =>
    obtain ⟨due, free, above, arrives, ladder, lasting⟩ := stage
    exact ⟨dueBeside deed aside due, free, above, arrivesBeside deed aside ladder arrives, ladder,
      lasting.imp_right (openBeside deed aside)⟩
  | creating =>
    obtain ⟨due, free, arrives⟩ := stage
    exact ⟨dueBeside deed aside due, free, arrivesBeside deed aside (Path.ladderHere _) arrives⟩
  | filling file chunks =>
    obtain ⟨due, bytes, drafts, whole⟩ := stage
    exact ⟨dueBeside deed aside due, bytes, draftsBeside deed aside strangers drafts, whole⟩
  | syncing file =>
    exact ⟨dueBeside deed aside stage.1, draftsBeside deed aside strangers stage.2⟩
  | examining file =>
    exact ⟨dueBeside deed aside stage.1, draftsBeside deed aside strangers stage.2⟩
  | permitting file mode =>
    obtain ⟨due, drafts, told⟩ := stage
    exact ⟨dueBeside deed aside due, draftsBeside deed aside strangers drafts,
      Tree.landingView spot ▸ told⟩
  | replacing file =>
    obtain ⟨due, mode, drafts, told⟩ := stage
    exact ⟨dueBeside deed aside due, mode, draftsBeside deed aside strangers drafts,
      Tree.landingView spot ▸ told⟩
  | discarding file why =>
    obtain ⟨due, refused, bytes, mode, drafts⟩ := stage
    exact ⟨dueBeside deed aside due, (Tree.landingView spot).trans refused, bytes, mode,
      draftsBeside deed aside strangers drafts⟩
  | done result =>
    obtain ⟨same, ended, there⟩ := stage
    refine ⟨same, fun free => ?_, fun written => spot ▸ there written⟩
    rw [further.2 (ended free)]
    exact ended free

theorem asideOf (strangers : Strangers d e) {w' : Writing}
    (actor : Underway d fate bits t w') (other : Underway e fate' bits' t w)
    (apart : t.Apart d.path e.path) : Aside d t e.path :=
  ⟨strangers.left, strangers.leftStrange, actor.settled, actor.straight, other.straight,
    Tree.apartSwap apart⟩

theorem underwayBeside (deed : Deed d fate bits t t') (aside : Aside d t e.path)
    (strangers : Strangers d e) (underway : Underway e fate' bits' t w) :
    Underway e fate' bits' t' w := by
  refine ⟨deedSettled deed aside.settled, deedStraight deed aside, ?_,
    underway.fits, stageBeside deed aside strangers underway.stage⟩
  intro loc entry found named
  have still := deedKeeps deed aside.own.named (named ▸ Ne.symm strangers.names)
    (named ▸ strangers.rightStrange) (named ▸ strangers.right.proper.2.1)
  exact underway.hidden (still.symm.trans found) named

end

end Writing
end BuildProbe
