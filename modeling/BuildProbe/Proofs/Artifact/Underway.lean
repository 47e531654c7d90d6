import BuildProbe.Proofs.Artifact.Climbing

/-!
A writing that is underway stays so with each of its own steps, and each step does one deed. So a
writing that nobody disturbs comes to its fate.
-/
namespace BuildProbe.Writing

open Text (Bytes)

variable {d : Draft} {fate : Except WriteFailure Outcome} {bits : Nat} {t t' : Tree} {w w' : Writing}

theorem freshName (fresh : d.Fresh) (named : Tree.Named d.path) : Tree.lastName d.path ≠ d.name := by
  intro same
  obtain ⟨_, _, k, pieces⟩ := Tree.namedFilled named
  refine fresh.apart ?_
  rw [pieces, ← same]
  exact List.mem_append_right _ List.mem_cons_self

theorem underwayDrafted (fresh : d.Fresh) (underway : Underway d fate bits t w)
    (spares : t.Spares d.name t')
    (hidden : ∀ {loc e}, t'.get? loc = some e → loc.name = d.name → w'.file? = some loc)
    (fits : ∀ {file}, w'.file? = some file → d.overlong = false)
    (stage : t'.toward d.path.directory = t.toward d.path.directory →
      t'.spot d.path = t.spot d.path → Stage d fate bits t' w') :
    Underway d fate bits t' w' ∧ Deed d fate bits t t' := by
  have straight := underway.straight
  have toward := Tree.towardSpared spares straight.onward (freshDirectory fresh)
  have spot := Tree.spotSpared spares straight.onward (freshDirectory fresh)
    (freshName fresh straight.named)
  refine ⟨⟨?_, ⟨straight.named, toward ▸ straight.onward, spot ▸ straight.solid⟩, hidden, fits,
    stage toward spot⟩, .drafted spares⟩
  intro id member
  exact Tree.knownSpared spares.directories (underway.settled id (spares.present ▸ member))

theorem dueSame (due : Due d fate bits t)
    (toward : t'.toward d.path.directory = t.toward d.path.directory)
    (spot : t'.spot d.path = t.spot d.path) : Due d fate bits t' :=
  dueView due (congrArg Tree.Approach.outlook toward) spot

theorem createdUnderway (fresh : d.Fresh) (underway : Underway d fate bits t .creating)
    (due : Due d fate bits t) (free : Tree.barred? d.path.directory = none) {way : List Nat}
    (arrived : t.toward d.path.directory = ⟨way, [], .clear⟩)
    (absent : t.get? ⟨Tree.standing way, d.name⟩ = none) (fits : d.overlong = false) :
    let file : Location := ⟨Tree.standing way, d.name⟩
    Underway d fate bits (t.add file (.file (.data []) Tree.draftMode)) (.filling file d.chunks) ∧
      Deed d fate bits t (t.add file (.file (.data []) Tree.draftMode)) := by
  refine underwayDrafted fresh underway (Tree.sparesAt (Tree.standing way) rfl ?_ ?_) ?_
    (fun _ => fits) ?_
  · rw [absent]
    rintro _ ⟨⟩
  · intro loc apart
    rw [Tree.getAdd, if_neg apart]
  · intro loc e found named
    rw [Tree.getAdd] at found
    split at found
    · rename_i same
      rw [same]
      rfl
    · cases underway.hidden found named
  · intro toward spot
    refine ⟨dueSame due toward spot, [], ⟨way, t.freshId, toward.trans arrived, free, rfl, ?_⟩, rfl⟩
    rw [Tree.getAdd, if_pos rfl]

theorem creatingUnderway (fresh : d.Fresh) (underway : Underway d fate bits t .creating) :
    Underway d fate bits (step d t .creating).1 (step d t .creating).2 ∧
      Deed d fate bits t (step d t .creating).1 := by
  obtain ⟨due, free, way, arrived⟩ := underway.stage
  obtain ⟨plain, short⟩ := Tree.barredNone free
  have entered := Tree.enterToward (Tree.unfitNone short d.path.directoryFilled) arrived
  have absent : t.get? ⟨Tree.standing way, d.name⟩ = none := by
    cases found : t.get? ⟨Tree.standing way, d.name⟩ with
    | none => rfl
    | some e => cases underway.hidden found rfl
  have made : t.create d.path.directory d.name = .ok (⟨Tree.standing way, d.name⟩,
      t.add ⟨Tree.standing way, d.name⟩ (.file (.data []) Tree.draftMode)) := by
    rw [Tree.create, Tree.withPath, if_neg (by simp [plain]), entered]
    simp only [bind, Except.bind, absent]
    rfl
  simp only [step, made]
  cases fits : d.overlong with
  | true =>
    have failed : fate = .error (d.uncreated (.system .nameTooLong)) := by
      rw [← due.fate, Tree.fate, if_neg due.differs, Tree.hindranceNone free ⟨way, arrived⟩, fits]
    refine ⟨underwayStay underway rfl ⟨failed.symm, fun _ => ?_, fun written => ?_⟩, .idle rfl⟩
    · rw [arrived]
    · rw [failed] at written
      cases written
  | false => exact createdUnderway fresh underway due free arrived absent fits

theorem redraftedUnderway (fresh : d.Fresh) (underway : Underway d fate bits t w) {file : Location}
    {bytes more : Bytes} {mode bits' : Nat} (drafts : Drafts d t file bytes mode)
    (own : w.file? = some file) (same : w'.file? = some file)
    (made : ∃ id, t' = t.insert file ⟨id, .file (.data more) bits'⟩)
    (stage : t'.toward d.path.directory = t.toward d.path.directory →
      t'.spot d.path = t.spot d.path → Drafts d t' file more bits' → Stage d fate bits t' w') :
    Underway d fate bits t' w' ∧ Deed d fate bits t t' := by
  obtain ⟨way, old, arrived, free, rfl, there⟩ := drafts
  obtain ⟨id, rfl⟩ := made
  refine underwayDrafted fresh underway (Tree.sparesAt (Tree.standing way) rfl ?_ ?_) ?_
    (fun _ => underway.fits own) ?_
  · rw [there]
    rintro _ ⟨⟩
  · intro loc apart
    rw [Tree.getInsert, if_neg apart]
  · intro loc e found named
    rw [Tree.getInsert] at found
    split at found
    · rename_i here
      rw [here]
      exact same
    · rw [same, ← own]
      exact underway.hidden found named
  · intro toward spot
    refine stage toward spot ⟨way, id, toward.trans arrived, free, rfl, ?_⟩
    rw [Tree.getInsert, if_pos rfl]

theorem fillingUnderway (fresh : d.Fresh) {file : Location} {chunks : List Bytes}
    (underway : Underway d fate bits t (.filling file chunks)) :
    Underway d fate bits (step d t (.filling file chunks)).1 (step d t (.filling file chunks)).2 ∧
      Deed d fate bits t (step d t (.filling file chunks)).1 := by
  obtain ⟨due, bytes, drafts, whole⟩ := underway.stage
  cases chunks with
  | nil =>
    have all : bytes = d.content := by simpa using whole
    exact ⟨underwayStay underway rfl ⟨due, all ▸ drafts⟩, .idle rfl⟩
  | cons chunk chunks =>
    obtain ⟨way, id, arrived, free, rfl, there⟩ := id drafts
    refine redraftedUnderway fresh underway drafts rfl rfl
      ⟨id, Tree.appendMade there chunk⟩ fun toward spot redrafts => ?_
    refine ⟨dueSame due toward spot, bytes ++ chunk, redrafts, ?_⟩
    rw [List.append_assoc]
    exact whole

theorem examiningUnderway {file : Location}
    (underway : Underway d fate bits t (.examining file)) :
    Underway d fate bits t (step d t (.examining file)).2 ∧
      (step d t (.examining file)).1 = t := by
  obtain ⟨due, drafts⟩ := underway.stage
  have straight := underway.straight
  have told := Tree.fileModeSpot straight.named straight.onward straight.solid
  simp only [step]
  split
  · rename_i mode asked
    rw [asked, due.bits] at told
    exact ⟨underwayStay underway rfl ⟨due, drafts, told⟩, rfl⟩
  · rename_i asked
    rw [asked, due.bits] at told
    exact ⟨underwayStay underway rfl ⟨due, Tree.draftMode, drafts, told⟩, rfl⟩

theorem permittingUnderway (fresh : d.Fresh) {file : Location} {mode : Nat}
    (underway : Underway d fate bits t (.permitting file mode)) :
    Underway d fate bits (step d t (.permitting file mode)).1
        (step d t (.permitting file mode)).2 ∧
      Deed d fate bits t (step d t (.permitting file mode)).1 := by
  obtain ⟨due, drafts, told⟩ := underway.stage
  obtain ⟨way, id, arrived, free, rfl, there⟩ := id drafts
  refine redraftedUnderway fresh underway drafts rfl rfl ⟨id, Tree.setModeMade there mode⟩
    fun toward spot redrafts => ⟨dueSame due toward spot, mode, redrafts, fun lands => told ?_⟩
  exact (Tree.landingView spot).symm.trans lands

theorem discardingUnderway (fresh : d.Fresh) {file : Location} {why : Errno}
    (underway : Underway d fate bits t (.discarding file why)) :
    Underway d fate bits (step d t (.discarding file why)).1
        (step d t (.discarding file why)).2 ∧
      Deed d fate bits t (step d t (.discarding file why)).1 := by
  obtain ⟨due, refused, bytes, mode, way, id, arrived, free, rfl, there⟩ := underway.stage
  have failed : fate = .error ⟨d.path.text, why.message⟩ := by
    rw [← due.fate, Tree.fate, if_neg due.differs, Tree.hindranceNone free ⟨way, arrived⟩,
      underway.fits rfl, refused]
  refine underwayDrafted fresh underway (Tree.sparesAt (Tree.standing way) rfl ?_ ?_) ?_ ?_ ?_
  · rw [there]
    rintro _ ⟨⟩
  · intro loc apart
    exact (Tree.getErase t _ loc).trans (if_neg apart)
  · intro loc e found named
    have found : (t.erase ⟨Tree.standing way, d.name⟩).get? loc = some e := found
    rw [Tree.getErase] at found
    split at found
    · cases found
    · rename_i apart
      exact absurd (Option.some.inj (underway.hidden found named)).symm apart
  · intro _ own
    cases own
  · intro toward spot
    refine ⟨failed.symm, fun _ => ?_, fun written => ?_⟩
    · rw [toward, arrived]
    · rw [failed] at written
      cases written

theorem placedUnderway (fresh : d.Fresh) {way : List Nat} {id : Nat}
    (underway : Underway d fate bits t (.replacing ⟨Tree.standing way, d.name⟩))
    (free : Tree.barred? d.path.directory = none)
    (arrived : t.toward d.path.directory = ⟨way, [], .clear⟩) (lands : t.landing? d.path = none)
    (moved : t.Moved t' ⟨Tree.standing way, d.name⟩ ⟨Tree.standing way, Tree.lastName d.path⟩
      ⟨id, .file (.data d.content) bits⟩) :
    Underway d fate bits t' (.done (.ok .written)) ∧ Deed d fate bits t t' := by
  obtain ⟨due, _⟩ := underway.stage
  have straight := underway.straight
  have name := freshName fresh straight.named
  have others : ∀ {loc : Location}, loc.name ≠ d.name →
      loc ≠ ⟨Tree.standing way, Tree.lastName d.path⟩ → t'.get? loc = t.get? loc :=
    fun named => moved.others fun same => named (congrArg Location.name same)
  have toward : t'.toward d.path.directory = t.toward d.path.directory := by
    refine Tree.towardPlaced moved.present moved.directories ⟨_, _, _, moved.there⟩ others
      straight.onward (freshDirectory fresh) fun m l ahead => ?_
    rw [arrived] at ahead
    cases ahead
  have spot : t'.spot d.path = some ⟨id, .file (.data d.content) bits⟩ := by
    rw [Tree.spotPlace (toward.trans arrived)]
    exact moved.there
  have written : fate = .ok .written := by
    rw [← due.fate, Tree.fate, if_neg due.differs, Tree.hindranceNone free ⟨way, arrived⟩,
      underway.fits rfl, lands]
  refine ⟨⟨?_, ⟨straight.named, toward ▸ straight.onward, ?_⟩, ?_, ?_, written.symm, ?_, ?_⟩,
    .placed written free arrived lands moved.present moved.directories ⟨id, moved.there⟩ others⟩
  · intro other member
    exact Tree.knownSpared moved.directories (underway.settled other (moved.present ▸ member))
  · rw [spot]
    rintro _ _ ⟨⟩
  · intro loc e found named
    have elsewhere : loc ≠ ⟨Tree.standing way, Tree.lastName d.path⟩ := by
      rintro rfl
      exact name named
    by_cases own : loc = ⟨Tree.standing way, d.name⟩
    · subst own
      rw [moved.gone elsewhere] at found
      cases found
    · rw [moved.others own elsewhere] at found
      exact absurd (Option.some.inj (underway.hidden found named)).symm own
  · intro _ own
    cases own
  · intro _
    rw [toward, arrived]
  · intro _
    exact ⟨id, spot⟩

theorem replacingUnderway (fresh : d.Fresh) {file : Location}
    (underway : Underway d fate bits t (.replacing file)) :
    Underway d fate bits (step d t (.replacing file)).1 (step d t (.replacing file)).2 ∧
      Deed d fate bits t (step d t (.replacing file)).1 := by
  obtain ⟨due, mode, drafts, told⟩ := underway.stage
  obtain ⟨way, id, arrived, free, rfl, there⟩ := id drafts
  have renamed := Tree.renameToward underway.straight.named arrived there
  simp only [step, renamed]
  cases lands : t.landing? d.path with
  | some why =>
    exact ⟨underwayStay underway rfl ⟨due, lands, d.content, mode, drafts⟩, .idle rfl⟩
  | none =>
    have solid : ∀ id, t.get? ⟨Tree.standing way, Tree.lastName d.path⟩ ≠ some ⟨id, .directory⟩ := by
      rw [← Tree.spotPlace arrived]
      exact (Tree.landingNone lands).2.2.2.2
    cases told lands
    exact placedUnderway fresh underway free arrived lands (Tree.renameMoves there rfl solid)

theorem stepUnderway (fresh : d.Fresh) (underway : Underway d fate bits t w) :
    Underway d fate bits (w.step d t).1 (w.step d t).2 ∧ Deed d fate bits t (w.step d t).1 := by
  have still : ∀ {w'}, (Underway d fate bits t w' ∧ (w.step d t).1 = t) →
      (w.step d t).2 = w' → Underway d fate bits (w.step d t).1 (w.step d t).2 ∧
        Deed d fate bits t (w.step d t).1 := by
    rintro w' ⟨underway, same⟩ rfl
    exact ⟨same.symm ▸ underway, .idle same⟩
  cases w with
  | comparing => exact still (comparingUnderway underway) rfl
  | climbing dir missing => exact climbingUnderway fresh underway
  | confirming dir missing why => exact still (confirmingUnderway underway) rfl
  | descending missing => exact descendingUnderway fresh underway
  | creating => exact creatingUnderway fresh underway
  | filling file chunks => exact fillingUnderway fresh underway
  | syncing file =>
    obtain ⟨due, drafts⟩ := underway.stage
    exact ⟨underwayStay underway rfl ⟨due, drafts⟩, .idle rfl⟩
  | examining file => exact still (examiningUnderway underway) rfl
  | permitting file mode => exact permittingUnderway fresh underway
  | replacing file => exact replacingUnderway fresh underway
  | discarding file why => exact discardingUnderway fresh underway
  | done result => exact ⟨underway, .idle rfl⟩

theorem underwayDone {result : Except WriteFailure Outcome}
    (underway : Underway d fate bits t w) (ended : w.result? = some result) :
    w = .done fate ∧ result = fate := by
  cases w <;> cases ended
  exact ⟨congrArg Writing.done underway.stage.1, underway.stage.1⟩

theorem finishUnderway (fresh : d.Fresh) (underway : Underway d fate bits t w) :
    Underway d fate bits (finish d .sound t w).1 (.done fate) ∧ (finish d .sound t w).2 = fate := by
  fun_induction finish d .sound t w with
  | case1 t w result ended =>
    obtain ⟨same, reached⟩ := underwayDone underway ended
    exact ⟨same ▸ underway, reached⟩
  | case2 t w going ih =>
    exact ih (stepUnderway fresh underway).1

theorem startUnderway (settled : t.Settled) (straight : t.Straight d.path)
    (unused : ∀ {loc e}, t.get? loc = some e → loc.name ≠ d.name) :
    Underway d (t.fate d) (t.bits d.path) t .comparing :=
  ⟨settled, straight, fun found named => absurd named (unused found), nofun, rfl, rfl⟩

end BuildProbe.Writing
