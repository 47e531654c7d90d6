import BuildProbe.Proofs.Artifact.Fate
import BuildProbe.Proofs.Artifact.Interruption
import BuildProbe.Proofs.Tree.Upkeep

/-!
Writings to a path that others may write to as well. What such a writing can rely on is its own
file alone: nobody else knows its name. So each of its steps is one of three kinds: nobody who reads
the path notices it, or it finds the artifact at the path, or it moves the artifact there.
-/
namespace BuildProbe

open Text (Bytes)

namespace Writing

def moves (d : Draft) (t : Tree) : Writing → Bool
  | .replacing file => (t.rename file d.path).isOk
  | _ => false

def outcome? : Writing → Option Outcome
  | .done (.ok outcome) => some outcome
  | _ => none

def Owns (d : Draft) (t : Tree) (file : Location) (bytes : Bytes) : Prop :=
  file.name = d.name ∧ ∃ id mode, t.get? file = some ⟨id, .file (.data bytes) mode⟩

def Carries (d : Draft) (t : Tree) : Writing → Prop
  | .climbing dir missing => ∀ part ∈ dir :: missing, OnWay d part
  | .confirming _ missing _ | .descending missing => ∀ part ∈ missing, OnWay d part
  | .filling file chunks => ∃ bytes, Owns d t file bytes ∧ bytes ++ chunks.flatten = d.content
  | .syncing file | .examining file | .permitting file _ | .replacing file =>
    Owns d t file d.content
  | .discarding file _ => ∃ bytes, Owns d t file bytes
  | .done (.ok _) => Tree.Fits d.path
  | _ => True

structure Afoot (d : Draft) (t : Tree) (w : Writing) : Prop where
  hidden : ∀ {loc e}, t.get? loc = some e → loc.name = d.name → w.file? = some loc
  carries : Carries d t w

/- A change to the tree that whoever reads the path does not notice. -/
inductive Ripple (d : Draft) (t t' : Tree) : Prop where
  | still (same : t' = t)
  | paved {part} (leads : part.Leads d.path) (made : t.mkdir part = .ok t')
  | jotted (forth : t.Routes t') (back : t'.Routes t)
      (others : ∀ {loc}, loc.name ≠ d.name → t'.get? loc = t.get? loc)

inductive Stir (d : Draft) (t : Tree) (w : Writing) (t' : Tree) (w' : Writing) : Prop where
  | ripple (ripple : Ripple d t t') (even : w'.outcome? = w.outcome?) (rests : w.moves d t = false)
  | found (same : t' = t) (ends : t.read d.path = .ok d.content) (new : w.outcome? = none)
      (outcome : w'.outcome? = some .unchanged) (rests : w.moves d t = false)
  | placed {file} (owns : Owns d t file d.content) (moved : t.rename file d.path = .ok t')
      (new : w.outcome? = none) (outcome : w'.outcome? = some .written) (moves : w.moves d t = true)

variable {d : Draft} {t t' : Tree} {w w' : Writing}

theorem rippleAt {file : Location} (named : file.name = d.name) (present : t'.present = t.present)
    (old : ∀ e, t.get? file = some e → e.passable = false)
    (new : ∀ e, t'.get? file = some e → e.passable = false)
    (others : ∀ {loc}, loc ≠ file → t'.get? loc = t.get? loc) : Ripple d t t' := by
  refine .jotted ⟨present.symm, ?_⟩ ⟨present, ?_⟩
    fun apart => others fun same => apart (same ▸ named)
  · intro loc e found passable
    have apart : loc ≠ file := by
      rintro rfl
      rw [new e found] at passable
      cases passable
    exact (others apart).symm.trans found
  · intro loc e found passable
    have apart : loc ≠ file := by
      rintro rfl
      rw [old e found] at passable
      cases passable
    exact (others apart).trans found

theorem ownsSolid {file : Location} {bytes : Bytes} (owns : Owns d t file bytes) :
    ∀ e, t.get? file = some e → e.passable = false := by
  obtain ⟨_, id, mode, there⟩ := owns
  intro e found
  cases there.symm.trans found
  rfl

theorem hiddenSame (afoot : Afoot d t w) (free : w.file? = none ∨ w'.file? = w.file?) :
    ∀ {loc e}, t.get? loc = some e → loc.name = d.name → w'.file? = some loc := by
  intro loc e found named
  have own := afoot.hidden found named
  rcases free with none | same
  · rw [none] at own
    cases own
  · exact same.trans own

theorem afootStill (afoot : Afoot d t w) (free : w.file? = none ∨ w'.file? = w.file?)
    (carries : Carries d t w') (even : w'.outcome? = w.outcome?) (rests : w.moves d t = false) :
    Stir d t w t w' ∧ Afoot d t w' :=
  ⟨.ripple (.still rfl) even rests, hiddenSame afoot free, carries⟩

theorem afootInsert (afoot : Afoot d t w) {file : Location} {bytes more : Bytes} {id mode : Nat}
    (owns : Owns d t file bytes) (own : w.file? = some file) (same : w'.file? = some file)
    (carries : ∀ {t'}, Owns d t' file more → Carries d t' w')
    (even : w'.outcome? = w.outcome?) (rests : w.moves d t = false) :
    Stir d t w (t.insert file ⟨id, .file (.data more) mode⟩) w' ∧
      Afoot d (t.insert file ⟨id, .file (.data more) mode⟩) w' := by
  have there : (t.insert file ⟨id, .file (.data more) mode⟩).get? file =
      some ⟨id, .file (.data more) mode⟩ := by rw [Tree.getInsert, if_pos rfl]
  have owns' : Owns d (t.insert file ⟨id, .file (.data more) mode⟩) file more :=
    ⟨owns.1, id, mode, there⟩
  refine ⟨.ripple (rippleAt owns.1 rfl (ownsSolid owns) (ownsSolid owns') ?_) even rests, ?_,
    carries owns'⟩
  · intro loc apart
    rw [Tree.getInsert, if_neg apart]
  · intro loc e found named
    rw [Tree.getInsert] at found
    split at found
    · rename_i at_file
      rw [at_file]
      exact same
    · rw [same, ← own]
      exact afoot.hidden found named

theorem comparingAfoot (proper : d.path.Proper) (afoot : Afoot d t .comparing) :
    Stir d t .comparing (step d t .comparing).1 (step d t .comparing).2 ∧
      Afoot d (step d t .comparing).1 (step d t .comparing).2 := by
  have climbing : Carries d t (.climbing d.path.directory []) := by
    simpa [Carries] using onWayDirectory d
  simp only [step]
  split
  · exact afootStill afoot (.inl rfl) trivial rfl rfl
  · split
    · rename_i bytes held
      split
      · rename_i same
        have ends := same ▸ held
        exact ⟨.found rfl ends rfl rfl rfl, hiddenSame afoot (.inl rfl), Tree.readFits proper ends⟩
      · exact afootStill afoot (.inl rfl) climbing rfl rfl
    · exact afootStill afoot (.inl rfl) climbing rfl rfl

theorem afootPaved (fresh : d.Fresh) (afoot : Afoot d t w) (free : w.file? = none) {part : Path}
    (onWay : OnWay d part) (made : t.mkdir part = .ok t') (carries : Carries d t' w')
    (even : w'.outcome? = w.outcome?) (rests : w.moves d t = false) :
    Stir d t w t' w' ∧ Afoot d t' w' := by
  have leads : part.Leads d.path := by
    rcases onWay with rfl | leads
    · rw [Tree.mkdirHere] at made
      cases made
    · exact leads
  refine ⟨.ripple (.paved leads made) even rests, fun {other e} found named => ?_, carries⟩
  obtain ⟨loc, _, member, rfl⟩ := Tree.mkdirOnWay leads made
  have elsewhere : other ≠ loc := by
    rintro rfl
    exact fresh.apart (named ▸ member)
  rw [Tree.getAdd, if_neg elsewhere] at found
  have own := afoot.hidden found named
  rw [free] at own
  cases own

theorem climbingAfoot (fresh : d.Fresh) {dir : Path} {missing : List Path}
    (afoot : Afoot d t (.climbing dir missing)) :
    Stir d t (.climbing dir missing) (step d t (.climbing dir missing)).1
        (step d t (.climbing dir missing)).2 ∧
      Afoot d (step d t (.climbing dir missing)).1 (step d t (.climbing dir missing)).2 := by
  have onWay : OnWay d dir := afoot.carries dir List.mem_cons_self
  have below : ∀ part ∈ missing, OnWay d part :=
    fun part member => afoot.carries part (List.mem_cons_of_mem _ member)
  simp only [step]
  split
  · exact afootStill afoot (.inl rfl) below rfl rfl
  · split
    · rename_i made
      exact afootPaved fresh afoot rfl onWay made below rfl rfl
    · rename_i why refusal
      split
      · rename_i absent
        split
        · rename_i above higher
          refine afootStill afoot (.inl rfl) ?_ rfl rfl
          intro part member
          rcases List.mem_cons.mp member with rfl | lower
          · rcases onWay with rfl | leads
            · rw [Tree.mkdirHere, absent] at refusal
              cases refusal
            · exact .inr (Path.leadsTrans (Path.parentLeads higher) leads)
          · exact afoot.carries part lower
        · exact afootStill afoot (.inl rfl) trivial rfl rfl
      · exact afootStill afoot (.inl rfl) below rfl rfl

theorem descendingAfoot (fresh : d.Fresh) {missing : List Path}
    (afoot : Afoot d t (.descending missing)) :
    Stir d t (.descending missing) (step d t (.descending missing)).1
        (step d t (.descending missing)).2 ∧
      Afoot d (step d t (.descending missing)).1 (step d t (.descending missing)).2 := by
  cases missing with
  | nil => exact afootStill afoot (.inl rfl) trivial rfl rfl
  | cons dir missing =>
    have below : ∀ part ∈ missing, OnWay d part :=
      fun part member => afoot.carries part (List.mem_cons_of_mem _ member)
    simp only [step]
    split
    · rename_i made
      exact afootPaved fresh afoot rfl (afoot.carries dir List.mem_cons_self) made below rfl rfl
    · exact afootStill afoot (.inl rfl) below rfl rfl

theorem creatingAfoot (afoot : Afoot d t .creating) :
    Stir d t .creating (step d t .creating).1 (step d t .creating).2 ∧
      Afoot d (step d t .creating).1 (step d t .creating).2 := by
  simp only [step]
  split
  · exact afootStill afoot (.inl rfl) trivial rfl rfl
  · rename_i file after _ made
    obtain ⟨_, named, free, rfl⟩ := Tree.createMade made
    have there : (t.add file (.file (.data []) Tree.draftMode)).get? file =
        some ⟨t.freshId, .file (.data []) Tree.draftMode⟩ := by rw [Tree.getAdd, if_pos rfl]
    have owns : Owns d (t.add file (.file (.data []) Tree.draftMode)) file [] :=
      ⟨named, _, _, there⟩
    refine ⟨.ripple (rippleAt named rfl (by simp [free]) (ownsSolid owns) ?_) rfl rfl, ?_,
      [], owns, rfl⟩
    · intro loc apart
      rw [Tree.getAdd, if_neg apart]
    · intro loc e found own
      rw [Tree.getAdd] at found
      split at found
      · rename_i same
        rw [same]
        rfl
      · cases afoot.hidden found own
  · exact afootStill afoot (.inl rfl) trivial rfl rfl

theorem fillingAfoot {file : Location} {chunks : List Bytes}
    (afoot : Afoot d t (.filling file chunks)) :
    Stir d t (.filling file chunks) (step d t (.filling file chunks)).1
        (step d t (.filling file chunks)).2 ∧
      Afoot d (step d t (.filling file chunks)).1 (step d t (.filling file chunks)).2 := by
  obtain ⟨bytes, owns, whole⟩ := afoot.carries
  cases chunks with
  | nil =>
    have all : bytes = d.content := by simpa using whole
    have complete : Owns d t file d.content := all ▸ owns
    exact afootStill afoot (.inr rfl) complete rfl rfl
  | cons chunk chunks =>
    have ⟨_, id, mode, there⟩ := owns
    simp only [step]
    rw [Tree.appendMade there]
    exact afootInsert afoot owns rfl rfl (fun owns => ⟨_, owns, by simpa using whole⟩) rfl rfl

theorem permittingAfoot {file : Location} {mode : Nat} (afoot : Afoot d t (.permitting file mode)) :
    Stir d t (.permitting file mode) (step d t (.permitting file mode)).1
        (step d t (.permitting file mode)).2 ∧
      Afoot d (step d t (.permitting file mode)).1 (step d t (.permitting file mode)).2 := by
  have owns : Owns d t file d.content := afoot.carries
  have ⟨_, id, old, there⟩ := owns
  simp only [step]
  rw [Tree.setModeMade there]
  exact afootInsert afoot owns rfl rfl (fun owns => owns) rfl rfl

theorem replacingAfoot (fresh : d.Fresh) (proper : d.path.Proper) {file : Location}
    (afoot : Afoot d t (.replacing file)) :
    Stir d t (.replacing file) (step d t (.replacing file)).1 (step d t (.replacing file)).2 ∧
      Afoot d (step d t (.replacing file)).1 (step d t (.replacing file)).2 := by
  have owns : Owns d t file d.content := afoot.carries
  simp only [step]
  split
  · rename_i after moved
    obtain ⟨plain, loc, e, place, short, _, _, same⟩ := Tree.renameMoved moved
    refine ⟨.placed owns moved rfl rfl ?_, fun {other e'} found named => ?_,
      Tree.slotFits proper plain place short⟩
    · simp only [moves, moved]
      rfl
    · have member : loc.name ∈ d.path.pieces := by
        rw [(Tree.slotBare place).2]
        exact List.mem_append_right _ List.mem_cons_self
      have elsewhere : other ≠ loc := by
        rintro rfl
        exact fresh.apart (named ▸ member)
      rw [same, Tree.getInsert, if_neg elsewhere, Tree.getErase] at found
      split at found
      · cases found
      · rename_i apart
        cases afoot.hidden found named
        exact absurd rfl apart
  · rename_i why refused
    refine afootStill afoot (.inr rfl) ⟨_, owns⟩ rfl ?_
    simp only [moves, refused]
    rfl

theorem discardingAfoot {file : Location} {why : Errno} (afoot : Afoot d t (.discarding file why)) :
    Stir d t (.discarding file why) (step d t (.discarding file why)).1
        (step d t (.discarding file why)).2 ∧
      Afoot d (step d t (.discarding file why)).1 (step d t (.discarding file why)).2 := by
  obtain ⟨bytes, owns⟩ := afoot.carries
  refine ⟨.ripple (rippleAt owns.1 rfl (ownsSolid owns) ?_ ?_) rfl rfl, ?_, trivial⟩
  · intro e found
    simp only [step, Tree.getErase, if_true] at found
    cases found
  · intro loc apart
    simp only [step, Tree.getErase, if_neg apart]
  · intro loc e found named
    simp only [step, Tree.getErase] at found
    split at found
    · cases found
    · rename_i apart
      cases afoot.hidden found named
      exact absurd rfl apart

theorem stepAfoot (fresh : d.Fresh) (proper : d.path.Proper) (afoot : Afoot d t w) :
    Stir d t w (w.step d t).1 (w.step d t).2 ∧ Afoot d (w.step d t).1 (w.step d t).2 := by
  cases w with
  | comparing => exact comparingAfoot proper afoot
  | climbing dir missing => exact climbingAfoot fresh afoot
  | confirming dir missing why =>
    simp only [step]
    split
    · exact afootStill afoot (.inl rfl) afoot.carries rfl rfl
    · exact afootStill afoot (.inl rfl) trivial rfl rfl
  | descending missing => exact descendingAfoot fresh afoot
  | creating => exact creatingAfoot afoot
  | filling file chunks => exact fillingAfoot afoot
  | syncing file => exact afootStill afoot (.inr rfl) afoot.carries rfl rfl
  | examining file =>
    simp only [step]
    split
    · exact afootStill afoot (.inr rfl) afoot.carries rfl rfl
    · exact afootStill afoot (.inr rfl) afoot.carries rfl rfl
  | permitting file mode => exact permittingAfoot afoot
  | replacing file => exact replacingAfoot fresh proper afoot
  | discarding file why => exact discardingAfoot afoot
  | done result => exact afootStill afoot (.inr rfl) afoot.carries rfl rfl

theorem stirOthers (stir : Stir d t w t' w') {loc : Location} (other : loc.name ≠ d.name)
    (strange : loc.name ∉ d.path.pieces) : t'.get? loc = t.get? loc := by
  cases stir with
  | ripple ripple even rests =>
    cases ripple with
    | still same => rw [same]
    | paved leads made =>
      obtain ⟨place, _, member, rfl⟩ := Tree.mkdirOnWay leads made
      have elsewhere : loc ≠ place := by
        rintro rfl
        exact strange member
      rw [Tree.getAdd, if_neg elsewhere]
    | jotted forth back others => exact others other
  | found same ends new outcome rests => rw [same]
  | @placed file owns moved new outcome moves =>
    obtain ⟨_, place, e, here, _, _, _, rfl⟩ := Tree.renameMoved moved
    have elsewhere : loc ≠ place := by
      rintro rfl
      refine strange ?_
      rw [(Tree.slotBare here).2]
      exact List.mem_append_right _ List.mem_cons_self
    have apart : loc ≠ file := by
      rintro rfl
      exact other owns.1
    rw [Tree.getInsert, if_neg elsewhere, Tree.getErase, if_neg apart]

theorem afootBeside {e : Draft} {v : Writing} (stir : Stir d t w t' w') (names : e.name ≠ d.name)
    (strange : e.name ∉ d.path.pieces) (afoot : Afoot e t v) : Afoot e t' v := by
  have same : ∀ {loc : Location}, loc.name = e.name → t'.get? loc = t.get? loc :=
    fun named => stirOthers stir (named ▸ names) (named ▸ strange)
  have owns : ∀ {file bytes}, Owns e t file bytes → Owns e t' file bytes := by
    rintro file bytes ⟨named, id, mode, there⟩
    exact ⟨named, id, mode, (same named).trans there⟩
  refine ⟨fun found named => afoot.hidden ((same named).symm.trans found) named, ?_⟩
  have carries := afoot.carries
  cases v with
  | filling file chunks =>
    obtain ⟨bytes, own, whole⟩ := carries
    exact ⟨bytes, owns own, whole⟩
  | discarding file why =>
    obtain ⟨bytes, own⟩ := carries
    exact ⟨bytes, owns own⟩
  | syncing | examining | permitting | replacing => exact owns carries
  | done result => cases result <;> exact carries
  | _ => exact carries

theorem rippleRead (sound : t.Sound) (unheard : t.Unheard d.name) (fresh : d.Fresh)
    (proper : d.path.Proper) (fits : Tree.Fits d.path) (ripple : Ripple d t t') :
    t'.read d.path = t.read d.path := by
  cases ripple with
  | still same => rw [same]
  | paved leads made =>
    by_cases missing : t.read d.path = .error (.system .notFound)
    · rw [missing]
      exact Tree.readPaved sound proper fits leads made
    · obtain ⟨loc, free, _, rfl⟩ := Tree.mkdirOnWay leads made
      exact Tree.readGrows (Tree.growsAdd free .directory) missing
  | jotted forth back others => exact Tree.readUnheard back.present others unheard fresh.apart

theorem rippleHalted (unheard : t.Unheard d.name) (fresh : d.Fresh) (ripple : Ripple d t t')
    (halted : t.slot d.path = .error .notADirectory) :
    t'.slot d.path = .error .notADirectory := by
  cases ripple with
  | still same => rw [same, halted]
  | paved leads made =>
    obtain ⟨loc, free, _, rfl⟩ := Tree.mkdirOnWay leads made
    rw [Tree.slotGrows (Tree.growsAdd free .directory) (by rw [halted]; rintro ⟨⟩), halted]
  | jotted forth back others =>
    rw [Tree.slotUnheard back.present others unheard fresh.apart, halted]

structure Swapped (d : Draft) (t t' : Tree) (loc : Location) : Prop where
  place : t.slot d.path = .ok ⟨loc.directory, .name loc.name, false⟩
  short : Tree.nameTooLong loc.name = false
  plain : d.path.hasNul = false
  replaceable : ∀ old, t.get? loc = some old → old.isDirectory = false
  present : t'.present = t.present
  complete : ∃ id mode, t'.get? loc = some ⟨id, .file (.data d.content) mode⟩
  kept : ∀ {other e}, t.get? other = some e → e.passable → other ≠ loc → t'.get? other = some e
  known : ∀ {other e}, t'.get? other = some e → other ≠ loc → t.get? other = some e

theorem ownsSwapped {file : Location} (owns : Owns d t file d.content)
    (moved : t.rename file d.path = .ok t') : ∃ loc, Swapped d t t' loc := by
  obtain ⟨plain, loc, e, place, short, replaceable, there, rfl⟩ := Tree.renameMoved moved
  obtain ⟨_, id, mode, own⟩ := owns
  cases own.symm.trans there
  refine ⟨loc, place, short, plain, replaceable, rfl, ⟨id, mode, ?_⟩, ?_, ?_⟩
  · rw [Tree.getInsert, if_pos rfl]
  · intro other e found passable elsewhere
    have apart : other ≠ file := by
      rintro rfl
      cases own.symm.trans found
      cases passable
    rw [Tree.getInsert, if_neg elsewhere, Tree.getErase, if_neg apart, found]
  · intro other e found elsewhere
    rw [Tree.getInsert, if_neg elsewhere, Tree.getErase] at found
    split at found
    · cases found
    · exact found

theorem swappedRead {loc : Location} (sound : t.Sound) (swapped : Swapped d t t' loc) :
    t'.read d.path = .ok d.content ∨
      t'.slot d.path = .error .notADirectory ∧ ∀ bytes, t.read d.path ≠ .ok bytes := by
  obtain ⟨id, mode, complete⟩ := swapped.complete
  have reads : t'.slot d.path = .ok ⟨loc.directory, .name loc.name, false⟩ →
      t'.read d.path = .ok d.content :=
    fun place => Tree.readPlaced place swapped.short swapped.plain complete
  by_cases readable : ∃ bytes, t.read d.path = .ok bytes
  · obtain ⟨bytes, ends⟩ := readable
    exact .inl (reads (Tree.slotUncrossed sound swapped.place ends swapped.replaceable
      swapped.present swapped.kept))
  · have blocked : t'.slot d.path = .ok ⟨loc.directory, .name loc.name, false⟩ ∨
        t'.slot d.path = .error .notADirectory := by
      refine Tree.slotBlocked swapped.present (fun {other e} found passable => ?_) swapped.place
      by_cases here : other = loc
      · exact .inr ⟨id, _, mode, here ▸ complete⟩
      · exact .inl (swapped.kept found passable here)
    exact blocked.imp reads fun halted => ⟨halted, fun bytes ends => readable ⟨bytes, ends⟩⟩

theorem swappedSound {loc : Location} (sound : t.Sound) (swapped : Swapped d t t' loc) :
    t'.Sound := by
  refine Tree.soundAlike sound swapped.present (fun {other id} found => ?_)
    fun {other id} found => ?_
  · refine swapped.kept found rfl ?_
    rintro rfl
    cases swapped.replaceable _ found
  · refine swapped.known found ?_
    rintro rfl
    obtain ⟨_, _, complete⟩ := swapped.complete
    cases complete.symm.trans found

theorem stirSound (sound : t.Sound) (stir : Stir d t w t' w') : t'.Sound := by
  cases stir with
  | ripple ripple even rests =>
    cases ripple with
    | still same => exact same ▸ sound
    | paved leads made =>
      obtain ⟨loc, free, _, rfl⟩ := Tree.mkdirOnWay leads made
      exact Tree.soundAdd sound free
    | jotted forth back others =>
      exact Tree.soundAlike sound back.present (fun found => back.known found rfl)
        fun found => forth.known found rfl
  | found same ends new outcome rests => exact same ▸ sound
  | placed owns moved new outcome moves =>
    obtain ⟨loc, swapped⟩ := ownsSwapped owns moved
    exact swappedSound sound swapped

theorem stirUnheard {name : String} (unheard : t.Unheard name) (stir : Stir d t w t' w') :
    t'.Unheard name := by
  intro other id target linked
  suffices old : t.get? other = some ⟨id, .link target⟩ from unheard old
  cases stir with
  | ripple ripple even rests =>
    cases ripple with
    | still same => exact same ▸ linked
    | paved leads made =>
      obtain ⟨loc, free, _, rfl⟩ := Tree.mkdirOnWay leads made
      rw [Tree.getAdd] at linked
      split at linked
      · cases linked
      · exact linked
    | jotted forth back others => exact forth.known linked rfl
  | found same ends new outcome rests => exact same ▸ linked
  | placed owns moved new outcome moves =>
    obtain ⟨loc, swapped⟩ := ownsSwapped owns moved
    refine swapped.known linked ?_
    rintro rfl
    obtain ⟨_, _, complete⟩ := swapped.complete
    cases complete.symm.trans linked

end Writing
end BuildProbe
