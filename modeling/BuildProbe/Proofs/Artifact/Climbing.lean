import BuildProbe.Proofs.Artifact.Fate
import BuildProbe.Proofs.Path.Leading

/-!
The way to a draft's directory. A writing climbs from there as long as something above is missing,
and descends again, making one directory after another. Only the first directory ahead is ever
made, and what refuses a directory on the way is what hinders the last one.
-/
namespace BuildProbe

open Text (Bytes)

namespace Tree

theorem placeArrived {t : Tree} {p : Path} {way : List Nat}
    (arrived : t.toward p.directory = ⟨way, [], .clear⟩) :
    t.place? p = some ⟨standing way, lastName p⟩ := by
  rw [place?, arrived]

theorem spotPlace {t : Tree} {p : Path} {way : List Nat}
    (arrived : t.toward p.directory = ⟨way, [], .clear⟩) :
    t.spot p = t.get? ⟨standing way, lastName p⟩ := by
  rw [spot, placeArrived arrived]
  rfl

theorem landingView {t t' : Tree} {p : Path} (spot : t'.spot p = t.spot p) :
    t'.landing? p = t.landing? p := by
  simp only [landing?, spot]

theorem heldView {t t' : Tree} {p : Path} (spot : t'.spot p = t.spot p) :
    t'.held? p = t.held? p := by
  simp only [held?, landingView spot, spot]

theorem bitsView {t t' : Tree} {p : Path} (spot : t'.spot p = t.spot p) : t'.bits p = t.bits p := by
  simp only [bits, spot]

theorem hindranceView {t t' : Tree} {dir : Path}
    (outlook : (t'.toward dir).outlook = (t.toward dir).outlook) :
    t'.hindrance? dir = t.hindrance? dir := by
  simp only [hindrance?, outlook]

theorem fateView {t t' : Tree} {d : Draft}
    (outlook : (t'.toward d.path.directory).outlook = (t.toward d.path.directory).outlook)
    (spot : t'.spot d.path = t.spot d.path) : t'.fate d = t.fate d := by
  simp only [fate, heldView spot, hindranceView outlook, landingView spot]

theorem heldArrives {t : Tree} {p : Path} {bytes : Bytes} (held : t.held? p = some bytes) :
    t.Arrives p.directory := by
  unfold held? at held
  split at held <;> try contradiction
  rename_i lands there
  obtain ⟨way, arrived, _⟩ := spotArrived there
  exact ⟨way, arrived⟩

theorem hindranceNone {t : Tree} {dir : Path} (free : barred? dir = none) (arrives : t.Arrives dir) :
    t.hindrance? dir = none := by
  obtain ⟨way, arrived⟩ := arrives
  rw [hindrance?, free, arrived]
  rfl

theorem spotAhead {t : Tree} {p : Path} (missing : (t.toward p.directory).ahead ≠ []) :
    t.spot p = none := by
  rw [spot, place?]
  split
  · rename_i way arrived
    rw [arrived] at missing
    exact absurd rfl missing
  · rfl

theorem spotEntered {t : Tree} {loc : Location} {p : Path} (free : t.get? loc = none)
    (known : t.Known loc.directory) (onward : (t.toward p.directory).outlook ≠ .astray)
    (elsewhere : t.place? p ≠ some loc) : (t.add loc .directory).spot p = t.spot p := by
  have entered := towardEntered free known onward
  generalize approached : t.toward p.directory = a at entered
  obtain ⟨way, ahead, outlook⟩ := a
  cases ahead with
  | nil =>
    cases outlook with
    | clear =>
      have other : (⟨standing way, lastName p⟩ : Location) ≠ loc := by
        rw [placeArrived approached] at elsewhere
        exact fun same => elsewhere (congrArg some same)
      rw [spotPlace approached, spotPlace entered, getAdd, if_neg other]
    | _ =>
      rw [spot, spot, place?, place?, approached, entered]
      rfl
  | cons m l =>
    have before : t.spot p = none := spotAhead (by rw [approached]; exact List.cons_ne_nil m l)
    rw [before]
    by_cases here : (⟨standing way, m⟩ : Location) = loc
    · rw [enteredAhead, if_pos here] at entered
      cases l with
      | cons next l => exact spotAhead (by rw [entered]; exact List.cons_ne_nil next l)
      | nil =>
        cases outlook with
        | clear =>
          rw [spotPlace entered, standing, List.headD_cons]
          exact freshNothing (knownOld known) _
        | _ => rw [spot, place?, entered]; rfl
    · rw [enteredAhead, if_neg here] at entered
      exact spotAhead (by rw [entered]; exact List.cons_ne_nil m l)

theorem settledAdd {t : Tree} {loc : Location} {node : Node} (free : t.get? loc = none)
    (settled : t.Settled) : (t.add loc node).Settled := by
  intro id member
  rcases settled id member with top | ⟨place, found⟩
  · exact .inl top
  · exact .inr ⟨place, (growsAdd free node).kept found⟩

theorem straightPaved {t : Tree} {loc : Location} {p : Path} (free : t.get? loc = none)
    (known : t.Known loc.directory) (straight : t.Straight p) (elsewhere : t.place? p ≠ some loc) :
    (t.add loc .directory).Straight p := by
  refine ⟨straight.named, ?_, ?_⟩
  · rw [towardEntered free known straight.onward, enteredOutlook]
    exact straight.onward
  · rw [spotEntered free known straight.onward elsewhere]
    exact straight.solid

end Tree

namespace Writing

variable {d : Draft} {fate : Except WriteFailure Outcome} {bits : Nat} {t t' : Tree} {w w' : Writing}

theorem underwayStay (underway : Underway d fate bits t w) (same : w'.file? = w.file?)
    (stage : Stage d fate bits t w') : Underway d fate bits t w' :=
  ⟨underway.settled, underway.straight, fun found named => same ▸ underway.hidden found named,
    fun own => underway.fits (same ▸ own), stage⟩

theorem dueView (due : Due d fate bits t)
    (outlook : (t'.toward d.path.directory).outlook = (t.toward d.path.directory).outlook)
    (spot : t'.spot d.path = t.spot d.path) : Due d fate bits t' :=
  ⟨(Tree.fateView outlook spot).trans due.fate, (Tree.bitsView spot).trans due.bits,
    (Tree.heldView spot).symm ▸ due.differs⟩

theorem fateHindered (due : Due d fate bits t) {why : Refusal}
    (hindered : t.hindrance? d.path.directory = some why) :
    fate = .error ⟨d.path.text, why.message⟩ := by
  rw [← due.fate, Tree.fate, if_neg due.differs, hindered]

theorem comparingUnderway (underway : Underway d fate bits t .comparing) :
    Underway d fate bits t (step d t .comparing).2 ∧ (step d t .comparing).1 = t := by
  obtain ⟨same, take⟩ := underway.stage
  have filled : ¬ d.path.isEmpty = true := by simp [Tree.namedNonempty underway.straight.named]
  have climbs : t.held? d.path ≠ some d.content →
      Underway d fate bits t (.climbing d.path.directory []) := fun differs =>
    underwayStay underway rfl
      ⟨⟨same, take, differs⟩, d.path.directoryTrimmed, rfl, .inl rfl⟩
  have held := Tree.readHeld underway.straight
  simp only [step, if_neg filled]
  split
  · rename_i bytes read
    split
    · rename_i equal
      have there := (held bytes).mp read
      rw [equal] at there
      refine ⟨underwayStay underway rfl ⟨?_, ?_, ?_⟩, rfl⟩
      · rw [← same, Tree.fate, if_pos there]
      · intro _
        obtain ⟨way, arrived⟩ := Tree.heldArrives there
        rw [arrived]
      · intro written
        rw [← same, Tree.fate, if_pos there] at written
        cases written
    · rename_i other
      refine ⟨climbs fun there => other ?_, rfl⟩
      exact Option.some.inj (((held bytes).mp read).symm.trans there)
  · rename_i why unread
    refine ⟨climbs fun there => ?_, rfl⟩
    rw [(held _).mpr there] at unread
    cases unread

theorem ladderAhead {above last : Path} {rungs : List Path} {way : List Nat} {m : String}
    {l : List String} {outlook : Tree.Outlook} (ladder : above.Ladder rungs last)
    (ahead : t.toward above = ⟨way, m :: l, outlook⟩) :
    ∃ l' outlook', t.toward last = ⟨way, m :: l', outlook'⟩ := by
  obtain ⟨lower, onward⟩ := Tree.ladderToward ladder
  rw [onward, ahead]
  cases outlook with
  | clear => exact ⟨_, _, Tree.onwardAhead ..⟩
  | _ => exact ⟨_, _, rfl⟩

theorem directoryApart {name : String} {p : Path} (proper : name ≠ ".") (apart : name ∉ p.pieces) :
    name ∉ p.directory.pieces := by
  rcases p.directoryLeads with here | ⟨n, _, leads⟩
  · rw [here]
    exact fun member => proper (List.mem_singleton.mp member)
  · rw [leads]
    exact fun member => apart (List.mem_of_mem_take member)

theorem freshDirectory (fresh : d.Fresh) : d.name ∉ d.path.directory.pieces :=
  directoryApart fresh.proper.2.1 fresh.apart

theorem aheadOwn {way : List Nat} {m : String} {l : List String} {outlook : Tree.Outlook}
    (ahead : t.toward d.path.directory = ⟨way, m :: l, outlook⟩) :
    t.get? ⟨Tree.standing way, m⟩ = none ∧ m ∈ d.path.directory.pieces := by
  have headed : (t.toward d.path.directory).ahead = m :: l := by rw [ahead]
  obtain ⟨free, member, _⟩ := Tree.approachHeaded headed
  have stands : (t.approach (t.base d.path.directory) d.path.directory.pieces).way = way :=
    congrArg Tree.Approach.way ahead
  exact ⟨stands ▸ free, member⟩

theorem aheadKnown {way : List Nat} {ahead : List String} {outlook : Tree.Outlook} {p : Path}
    (settled : t.Settled) (approached : t.toward p = ⟨way, ahead, outlook⟩) :
    t.Known (Tree.standing way) := by
  have known := Tree.towardKnown settled p
  rw [approached] at known
  exact Tree.standingKnown known

theorem underwayPaved (fresh : d.Fresh) (underway : Underway d fate bits t w)
    (bare : w.file? = none) (bare' : w'.file? = none) {way : List Nat} {m : String} {l : List String}
    {outlook : Tree.Outlook} (ahead : t.toward d.path.directory = ⟨way, m :: l, outlook⟩)
    (stage : Stage d fate bits (t.add ⟨Tree.standing way, m⟩ .directory) w') :
    Underway d fate bits (t.add ⟨Tree.standing way, m⟩ .directory) w' := by
  obtain ⟨free, member⟩ := aheadOwn ahead
  have known := aheadKnown underway.settled ahead
  have elsewhere : t.place? d.path ≠ some ⟨Tree.standing way, m⟩ := by
    rw [Tree.place?, ahead]
    rintro ⟨⟩
  refine ⟨Tree.settledAdd free underway.settled,
    Tree.straightPaved free known underway.straight elsewhere, ?_, fun own => ?_, stage⟩
  · intro loc e found named
    rw [Tree.getAdd] at found
    split at found
    · rename_i same
      rw [same] at named
      exact absurd (named ▸ member) (freshDirectory fresh)
    · have drafted := underway.hidden found named
      rw [bare] at drafted
      cases drafted
  · rw [bare'] at own
    cases own

theorem duePaved (underway : Underway d fate bits t w) (due : Due d fate bits t)
    {way : List Nat} {m : String} {l : List String} {outlook : Tree.Outlook}
    (ahead : t.toward d.path.directory = ⟨way, m :: l, outlook⟩) :
    Due d fate bits (t.add ⟨Tree.standing way, m⟩ .directory) := by
  obtain ⟨free, _⟩ := aheadOwn ahead
  have known := aheadKnown underway.settled ahead
  have elsewhere : t.place? d.path ≠ some ⟨Tree.standing way, m⟩ := by
    rw [Tree.place?, ahead]
    rintro ⟨⟩
  refine dueView due ?_ (Tree.spotEntered free known underway.straight.onward elsewhere)
  rw [Tree.towardEntered free known underway.straight.onward, Tree.enteredOutlook]

inductive Making (t : Tree) (dir : Path) : Except Refusal Tree → Prop where
  | there (free : Tree.barred? dir = none) (arrives : t.Arrives dir) :
      Making t dir (.error (.system .alreadyExists))
  | new {way m} (free : Tree.barred? dir = none) (ahead : t.toward dir = ⟨way, [m], .clear⟩) :
      Making t dir (.ok (t.add ⟨Tree.standing way, m⟩ .directory))
  | missing {way m l outlook} (free : Tree.barred? dir = none)
      (ahead : t.toward dir = ⟨way, m :: l, outlook⟩) (more : ¬(l = [] ∧ outlook = .clear)) :
      Making t dir (.error (.system .notFound))
  | refused {why} (refuses : t.Refuses dir why) (other : why ≠ .system .notFound) :
      Making t dir (.error why)

theorem mkdirMaking {dir : Path} (trimmed : dir.Trimmed) (filled : dir.isEmpty = false)
    (onward : (t.toward dir).outlook ≠ .astray) : Making t dir (t.mkdir dir) := by
  cases barred : Tree.barred? dir with
  | some why =>
    rw [Tree.mkdirBarred barred]
    refine .refused (.inl barred) ?_
    rintro rfl
    unfold Tree.barred? at barred
    split at barred
    · cases barred
    · split at barred <;> cases barred
  | none =>
    have makes := Tree.mkdirToward (t := t) trimmed filled barred
    generalize approached : t.toward dir = a at makes onward
    obtain ⟨way, ahead, outlook⟩ := a
    have refused : ∀ why, ahead = [] → outlook.errno? = some why →
        t.mkdir dir = .error (.system why) → why ≠ .notFound → Making t dir (t.mkdir dir) := by
      rintro why rfl refuses result other
      rw [result]
      refine .refused (.inr ⟨barred, ?_, ?_⟩) fun same => other (Refusal.system.inj same)
      · rw [approached]
      · rw [approached, refuses]
        rfl
    match ahead, outlook, makes, approached with
    | [], .clear, makes, approached =>
      rw [show t.mkdir dir = _ from makes]
      exact .there barred ⟨way, approached⟩
    | [], .overlong, makes, approached => exact refused _ rfl rfl (makes _ rfl) nofun
    | [], .shut [], makes, approached => exact refused _ rfl rfl (makes _ rfl) nofun
    | [], .shut (_ :: _), makes, approached => exact refused _ rfl rfl (makes _ rfl) nofun
    | [m], .clear, makes, approached =>
      rw [show t.mkdir dir = _ from makes]
      exact .new barred approached
    | m :: next :: l, outlook, makes, approached =>
      have result : t.mkdir dir = .error (.system .notFound) := by cases outlook <;> exact makes
      rw [result]
      exact .missing barred approached fun h => nomatch h.1
    | [m], .overlong, makes, approached =>
      rw [show t.mkdir dir = _ from makes]
      exact .missing barred approached fun h => nomatch h.2
    | [m], .shut beyond, makes, approached =>
      rw [show t.mkdir dir = _ from makes]
      exact .missing barred approached fun h => nomatch h.2

theorem ladderOnward {above last : Path} {rungs : List Path} (ladder : above.Ladder rungs last)
    (onward : (t.toward last).outlook ≠ .astray) : (t.toward above).outlook ≠ .astray := by
  intro astray
  obtain ⟨lower, same⟩ := Tree.ladderToward (t := t) ladder
  rw [same, Tree.Approach.onward, astray] at onward
  exact onward astray

theorem refusesBelow {above last : Path} {rungs : List Path} {why : Refusal}
    (ladder : above.Ladder rungs last) (lasting : rungs = [] ∨ t.Open last)
    (refuses : t.Refuses above why) : t.hindrance? last = some why := by
  rcases lasting with rfl | ⟨free, outlook⟩
  · cases show above = last from ladder
    rcases refuses with barred | ⟨free, _, refused⟩
    · rw [Tree.hindrance?, barred]
      rfl
    · rw [Tree.hindrance?, free, refused]
      rfl
  · rcases refuses with barred | ⟨_, ended, refused⟩
    · rw [Tree.ladderFree ladder free] at barred
      cases barred
    · obtain ⟨lower, same⟩ := Tree.ladderToward (t := t) ladder
      rw [Tree.hindrance?, free, Option.none_or]
      rw [same] at outlook ⊢
      rw [Tree.Approach.onward] at outlook ⊢
      cases stands : (t.toward above).outlook with
      | overlong =>
        simp only [stands] at refused ⊢
        exact refused
      | shut beyond =>
        simp only [stands] at outlook
        rcases outlook with clear | overlong <;> contradiction
      | clear => rw [stands] at refused; cases refused
      | astray => rw [stands] at refused; cases refused

theorem lastFree {above last : Path} {rungs : List Path} (ladder : above.Ladder rungs last)
    (lasting : rungs = [] ∨ t.Open last) (free : Tree.barred? above = none) :
    Tree.barred? last = none := by
  rcases lasting with rfl | ⟨free, _⟩
  · cases show above = last from ladder
    exact free
  · exact free

theorem openAhead {above last : Path} {rungs : List Path} {way : List Nat} {m : String}
    {l : List String} {outlook : Tree.Outlook} (ladder : above.Ladder rungs last)
    (lasting : rungs = [] ∨ t.Open last) (free : Tree.barred? above = none)
    (onward : (t.toward last).outlook ≠ .astray)
    (ahead : t.toward above = ⟨way, m :: l, outlook⟩) : t.Open last := by
  refine ⟨lastFree ladder lasting free, ?_⟩
  obtain ⟨l', outlook', same⟩ := ladderAhead ladder ahead
  have missing : (t.toward last).ahead ≠ [] := by rw [same]; exact List.cons_ne_nil m l'
  cases stands : (t.toward last).outlook with
  | clear => exact .inl rfl
  | overlong => exact .inr rfl
  | shut beyond => exact absurd stands (Tree.approachOpen missing beyond)
  | astray => exact absurd stands onward

theorem descendingPaved (fresh : d.Fresh) (underway : Underway d fate bits t w)
    (bare : w.file? = none) (due : Due d fate bits t) {dir : Path} {missing : List Path}
    {way : List Nat} {m : String} (ladder : dir.Ladder missing d.path.directory)
    (lasting : missing = [] ∨ t.Open d.path.directory) (free : Tree.barred? dir = none)
    (ahead : t.toward dir = ⟨way, [m], .clear⟩) :
    Underway d fate bits (t.add ⟨Tree.standing way, m⟩ .directory) (.descending missing) ∧
      Deed d fate bits t (t.add ⟨Tree.standing way, m⟩ .directory) := by
  have onward := ladderOnward ladder underway.straight.onward
  obtain ⟨l, outlook, last⟩ := ladderAhead ladder ahead
  have known := aheadKnown underway.settled last
  have lastly := lastFree ladder lasting free
  have entered := Tree.towardEntered (aheadOwn last).1 known underway.straight.onward
  refine ⟨underwayPaved fresh underway bare rfl last ⟨duePaved underway due last, lastly, dir, ?_,
    ladder, lasting.imp_right fun ⟨free, outlook⟩ => ⟨free, ?_⟩⟩, .paved last lastly rfl⟩
  · refine ⟨t.freshId :: way, ?_⟩
    rw [Tree.towardEntered (aheadOwn last).1 known onward, ahead, Tree.enteredAhead, if_pos rfl]
  · rw [entered, Tree.enteredOutlook]
    exact outlook

theorem climbingUnderway (fresh : d.Fresh) {dir : Path} {missing : List Path}
    (underway : Underway d fate bits t (.climbing dir missing)) :
    Underway d fate bits (step d t (.climbing dir missing)).1
        (step d t (.climbing dir missing)).2 ∧
      Deed d fate bits t (step d t (.climbing dir missing)).1 := by
  obtain ⟨due, trimmed, ladder, lasting⟩ := underway.stage
  have onward := ladderOnward ladder underway.straight.onward
  simp only [step]
  split
  · rename_i empty
    have bare : dir.isEmpty = true := empty
    have more : missing ≠ [] := by
      rintro rfl
      rw [show dir = d.path.directory from ladder, d.path.directoryFilled] at bare
      cases bare
    have free := (lasting.resolve_left more).1
    have arrives : t.Arrives dir := by
      simp only [Path.isEmpty, Bool.and_eq_true, List.isEmpty_iff] at bare
      exact ⟨t.base dir, by rw [Tree.toward, bare.2]; rfl⟩
    exact ⟨underwayStay underway rfl ⟨due, free, dir, arrives, ladder, lasting⟩, .idle rfl⟩
  · rename_i filled
    have filled : dir.isEmpty = false := by simpa using filled
    have making := mkdirMaking trimmed filled onward
    generalize t.mkdir dir = result at making
    cases making with
    | there free arrives =>
      exact ⟨underwayStay underway rfl ⟨due, filled, ladder, lasting, .inl ⟨free, arrives⟩⟩,
        .idle rfl⟩
    | new free ahead => exact descendingPaved fresh underway rfl due ladder lasting free ahead
    | missing free ahead more =>
      simp only [if_pos]
      cases higher : dir.parent? with
      | none =>
        rw [Tree.toward, Path.parentNone trimmed higher] at ahead
        cases ahead
      | some above =>
        exact ⟨underwayStay underway rfl ⟨due, Path.parentTrimmed higher,
          ⟨Path.parentRung trimmed higher, trimmed, ladder⟩,
          .inr (openAhead ladder lasting free underway.straight.onward ahead)⟩, .idle rfl⟩
    | refused refuses other =>
      simp only [if_neg other]
      exact ⟨underwayStay underway rfl ⟨due, filled, ladder, lasting,
        .inr ⟨refuses, refusesBelow ladder lasting refuses⟩⟩, .idle rfl⟩

theorem refusesAhead {above last : Path} {rungs : List Path} {why : Refusal}
    (ladder : above.Ladder rungs last) (refuses : t.Refuses above why)
    (free : Tree.barred? last = none) : (t.toward last).ahead = [] := by
  rcases refuses with barred | ⟨_, ended, refused⟩
  · rw [Tree.ladderFree ladder free] at barred
    cases barred
  · obtain ⟨lower, same⟩ := Tree.ladderToward (t := t) ladder
    rw [same, Tree.Approach.onward]
    cases stands : (t.toward above).outlook with
    | clear => rw [stands] at refused; cases refused
    | _ => simp only [ended]

theorem rungArrived {above dir : Path} (rung : dir.Rung above) (arrives : t.Arrives above) :
    (t.toward dir).ahead = [] ∨ ∃ way m, t.toward dir = ⟨way, [m], .clear⟩ := by
  obtain ⟨way, arrived⟩ := arrives
  obtain ⟨blanks, last, blank, pieces⟩ := rung.pieces
  have clear : t.approach (t.base dir) above.pieces = ⟨way, [], .clear⟩ := by
    rw [t.baseAbsolute rung.absolute]
    exact arrived
  rw [Tree.toward, pieces, Tree.approachAppend, Tree.approachAppend, clear, Tree.onwardArrived,
    Tree.approachBlank blank, Tree.onwardArrived, Tree.approach]
  split
  · exact .inl rfl
  · split
    · exact .inl rfl
    · split
      · exact .inl rfl
      · split
        · exact .inr ⟨way, last, rfl⟩
        · exact .inl rfl
        · exact .inl rfl
        · exact .inl rfl

theorem confirmingUnderway {dir : Path} {missing : List Path} {why : Refusal}
    (underway : Underway d fate bits t (.confirming dir missing why)) :
    Underway d fate bits t (step d t (.confirming dir missing why)).2 ∧
      (step d t (.confirming dir missing why)).1 = t := by
  obtain ⟨due, filled, ladder, lasting, ⟨free, arrives⟩ | ⟨refuses, hindered⟩⟩ := underway.stage
  · have onward := ladderOnward ladder underway.straight.onward
    have there := (Tree.isDirectoryToward free filled onward).mpr arrives
    simp only [step, if_pos there]
    exact ⟨underwayStay underway rfl
      ⟨due, lastFree ladder lasting free, dir, arrives, ladder, lasting⟩, trivial⟩
  · have onward := ladderOnward ladder underway.straight.onward
    have absent : ¬ t.isDirectory dir = true := by
      rcases refuses with barred | ⟨free, ended, refused⟩
      · rw [Tree.isDirectoryBarred barred]
        exact Bool.false_ne_true
      · intro there
        obtain ⟨way, arrived⟩ := (Tree.isDirectoryToward free filled onward).mp there
        rw [arrived] at refused
        cases refused
    simp only [step, if_neg absent]
    refine ⟨underwayStay underway rfl ⟨(fateHindered due hindered).symm, ?_, ?_⟩, trivial⟩
    · exact refusesAhead ladder refuses
    · intro written
      rw [fateHindered due hindered] at written
      cases written

theorem descendingUnderway (fresh : d.Fresh) {missing : List Path}
    (underway : Underway d fate bits t (.descending missing)) :
    Underway d fate bits (step d t (.descending missing)).1 (step d t (.descending missing)).2 ∧
      Deed d fate bits t (step d t (.descending missing)).1 := by
  obtain ⟨due, free, above, arrives, ladder, lasting⟩ := underway.stage
  cases missing with
  | nil =>
    cases show above = d.path.directory from ladder
    exact ⟨underwayStay underway rfl ⟨due, free, arrives⟩, .idle rfl⟩
  | cons dir missing =>
    obtain ⟨rung, trimmed, lower⟩ := ladder
    have opens : t.Open d.path.directory := lasting.resolve_left (List.cons_ne_nil _ _)
    have onward := ladderOnward lower underway.straight.onward
    have dirFree := Tree.ladderFree lower free
    obtain ⟨blanks, last, blank, pieces⟩ := rung.pieces
    have filled : dir.isEmpty = false := by
      rw [Path.isEmpty, pieces]
      simp
    have making := mkdirMaking trimmed filled onward
    simp only [step]
    generalize t.mkdir dir = result at making
    cases making with
    | there free arrives =>
      exact ⟨underwayStay underway rfl ⟨due, filled, lower, .inr opens, .inl ⟨free, arrives⟩⟩,
        .idle rfl⟩
    | new free ahead => exact descendingPaved fresh underway rfl due lower (.inr opens) free ahead
    | missing free ahead more =>
      rcases rungArrived rung arrives with there | ⟨_, _, single⟩
      · rw [ahead] at there
        cases there
      · rw [ahead] at single
        cases single
        exact absurd ⟨rfl, rfl⟩ more
    | refused refuses other =>
      exact ⟨underwayStay underway rfl ⟨due, filled, lower, .inr opens,
        .inr ⟨refuses, refusesBelow lower (.inr opens) refuses⟩⟩, .idle rfl⟩

end Writing
end BuildProbe
