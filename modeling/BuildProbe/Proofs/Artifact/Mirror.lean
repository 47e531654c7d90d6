import BuildProbe.Artifact.Site
import BuildProbe.Proofs.Artifact.Ground
import BuildProbe.Proofs.Artifact.Persisting
import BuildProbe.Proofs.Rehearsal.Shelf
import Mathlib

/-!
A shelf mirrors a tree. When artifacts are persisted at ordinary paths, in a tree whose present
directory is empty at first and on an empty shelf, each is kept by both or found by both, and after
each of them the files in the tree are the artifacts on the shelf.
-/
namespace BuildProbe

open Text (Bytes)

structure Path.Ordinary (p : Path) : Prop where
  relative : p.absolute = false
  filled : p.pieces ≠ []
  proper : ∀ name ∈ p.pieces, name ≠ "" ∧ name ≠ "." ∧ name ≠ ".."
  fitting : ∀ name ∈ p.pieces, Tree.nameTooLong name = false
  plain : p.hasNul = false

instance (p : Path) : Decidable p.Ordinary :=
  decidable_of_iff (p.absolute = false ∧ p.pieces ≠ [] ∧
      (∀ name ∈ p.pieces, name ≠ "" ∧ name ≠ "." ∧ name ≠ "..") ∧
      (∀ name ∈ p.pieces, Tree.nameTooLong name = false) ∧ p.hasNul = false)
    ⟨fun ⟨relative, filled, proper, fitting, plain⟩ => ⟨relative, filled, proper, fitting, plain⟩,
      fun ⟨relative, filled, proper, fitting, plain⟩ => ⟨relative, filled, proper, fitting, plain⟩⟩

def Path.Short (p : Path) : Prop := p.text.utf8ByteSize < Tree.pathLimit
instance (p : Path) : Decidable p.Short := by
  unfold Path.Short; infer_instance

namespace Tree

variable {t : Tree} {p : Path}

theorem ordinaryNormal (ordinary : p.Ordinary) : p.normal = p := by
  have kept : p.pieces.filter Path.named = p.pieces := by
    refine List.filter_eq_self.mpr fun name member => ?_
    obtain ⟨filled, dot, _⟩ := ordinary.proper name member
    simp [Path.named, filled, dot]
  unfold Path.normal
  split
  · rename_i rest _ pieces
    exact absurd rfl (ordinary.proper "." (pieces ▸ List.mem_cons_self)).2.1
  · rw [kept]

theorem ordinaryProper (ordinary : p.Ordinary) : p.Proper := ⟨ordinary.filled, ordinary.proper⟩

theorem ordinaryNamed (ordinary : p.Ordinary) : Named p := properNamed (ordinaryProper ordinary)

theorem ordinaryToward (ordinary : p.Ordinary) :
    ∃ before, p.pieces = before ++ [lastName p] ∧
      t.toward p.directory = t.approach t.present before := by
  obtain ⟨before, pieces, _⟩ := properSplit (ordinaryProper ordinary)
  obtain ⟨filled, _, _⟩ := namedFilled (ordinaryNamed ordinary)
  have base : ∀ {q : Path}, q.absolute = false → t.base q = t.present := by
    intro q relative
    rw [Tree.base, relative]
    rfl
  refine ⟨before, pieces, ?_⟩
  obtain ⟨blanks, blank, ⟨absolute, whole⟩ | ⟨here, _, whole⟩⟩ :=
    Path.directoryPieces (k := 0) filled pieces
  · have none : blanks = [] := by
      refine List.eq_nil_iff_forall_not_mem.mpr fun b member => ?_
      have inside : b ∈ p.pieces := by
        rw [pieces, whole]
        exact List.mem_append_left _ (List.mem_append_right _ member)
      obtain ⟨filled, dot, _⟩ := ordinary.proper b inside
      exact (blank b member).elim filled dot
    rw [toward, base (absolute.trans ordinary.relative), whole, none, List.append_nil]
  · have none : before = [] := by
      refine List.eq_nil_iff_forall_not_mem.mpr fun b member => ?_
      have inside : b ∈ p.pieces := by
        rw [pieces]
        exact List.mem_append_left _ member
      obtain ⟨filled, dot, _⟩ := ordinary.proper b inside
      exact (blank b (whole ▸ member)).elim filled dot
    rw [here, none, toward, base rfl]
    rfl

theorem ventureOrdinary {names : List String}
    (proper : ∀ name ∈ names, name ≠ "" ∧ name ≠ "." ∧ name ≠ "..")
    (fitting : ∀ name ∈ names, nameTooLong name = false) : venture names = (names, .clear) := by
  induction names with
  | nil => rfl
  | cons name rest ih =>
    obtain ⟨filled, dot, up⟩ := proper name List.mem_cons_self
    have further := ih (fun other member => proper other (List.mem_cons_of_mem _ member))
      fun other member => fitting other (List.mem_cons_of_mem _ member)
    rw [venture, if_neg (not_or.mpr ⟨filled, dot⟩), if_neg up,
      if_neg (by simp [fitting name List.mem_cons_self]), further]

def Bare (t : Tree) : Prop := ∀ name, t.get? ⟨standing t.present, name⟩ = none

theorem bareToward (bare : t.Bare) (ordinary : p.Ordinary) :
    ∃ before, p.pieces = before ++ [lastName p] ∧
      t.toward p.directory = ⟨t.present, before, .clear⟩ := by
  obtain ⟨before, pieces, toward⟩ := ordinaryToward (t := t) ordinary
  have inside : ∀ name ∈ before, name ∈ p.pieces := fun name member =>
    pieces ▸ List.mem_append_left _ member
  have names := ventureOrdinary (fun name member => ordinary.proper name (inside name member))
    fun name member => ordinary.fitting name (inside name member)
  refine ⟨before, pieces, toward.trans ?_⟩
  rw [approachVenture bare (by rw [names]; exact nofun), names]

theorem bareSpot (bare : t.Bare) (ordinary : p.Ordinary) : t.spot p = none := by
  obtain ⟨before, _, toward⟩ := bareToward bare ordinary
  cases before with
  | nil => rw [spotPlace toward, bare]
  | cons name rest => exact spotAhead (by rw [toward]; exact List.cons_ne_nil _ _)

theorem bareStraight (bare : t.Bare) (ordinary : p.Ordinary) : t.Straight p := by
  obtain ⟨before, _, toward⟩ := bareToward bare ordinary
  refine ⟨ordinaryNamed ordinary, ?_, ?_⟩
  · rw [toward]
    exact nofun
  · rw [bareSpot bare ordinary]
    exact nofun

theorem bareUnder (bare : t.Bare) {q : Path} (ordinary : p.Ordinary) (ordinary' : q.Ordinary)
    (under : t.Under p q) : q.pieces <+: p.pieces := by
  obtain ⟨before, pieces, toward⟩ := bareToward bare ordinary
  obtain ⟨before', pieces', toward'⟩ := bareToward bare ordinary'
  rw [Under, toward, toward'] at under
  rw [pieces, pieces']
  exact under.2.2

theorem wordsNames {loc : Location} {e : Entry} (found : t.get? loc = some e) :
    loc.name ∈ t.words := by
  obtain ⟨⟨name, entry⟩, hit, rfl⟩ := Option.map_eq_some_iff.mp found
  have member := List.mem_of_find?_eq_some hit
  have named : name = loc.name := by simpa using List.find?_some hit
  refine List.mem_flatMap.mpr ⟨_, namesKnown (List.ne_nil_of_mem member), ?_⟩
  refine List.mem_flatMap.mpr ⟨_, member, ?_⟩
  subst named
  simp only
  split <;> exact List.mem_cons_self

theorem draftFresh (t : Tree) (site : Site) (p : Path) (flags : List Flag) :
    (t.draft site p flags).Fresh :=
  ⟨site.proper _, fun member => site.free (p.pieces ++ t.words) (List.mem_append_left _ member)⟩

theorem draftUnused (t : Tree) (site : Site) (p : Path) (flags : List Flag) {loc : Location}
    {e : Entry} (found : t.get? loc = some e) : loc.name ≠ (t.draft site p flags).name := by
  intro same
  have named : loc.name = site.name (p.pieces ++ t.words) := same
  exact site.free (p.pieces ++ t.words) (List.mem_append_right _ (named ▸ wordsNames found))

theorem ordinaryLanding (ordinary : p.Ordinary) (short : p.Short)
    (solid : ∀ id, t.spot p ≠ some ⟨id, .directory⟩) :
    t.landing? p = none := by
  obtain ⟨before, pieces, _⟩ := properSplit (ordinaryProper ordinary)
  have last : lastName p ∈ p.pieces := pieces ▸ List.mem_append_right _ List.mem_cons_self
  have bare : p.pieces.getLast? ≠ some "" := by
    rw [pieces, List.getLast?_concat]
    exact fun same => (ordinary.proper _ last).1 (Option.some.inj same)
  have fits : ¬ pathLimit ≤ p.text.utf8ByteSize := Nat.not_le.mpr short
  rw [landing?, if_neg (by simp [ordinary.plain]),
    if_neg (not_or.mpr ⟨fits, by simp [ordinary.fitting _ last]⟩), if_neg bare]
  split
  · rename_i id there
    exact absurd there (solid id)
  · rfl

theorem ordinaryFree (ordinary : p.Ordinary) (short : p.Short) :
    barred? p.directory = none := by
  have free : barred? p = none := by
    rw [barred?, if_neg (by simp [ordinary.plain]), if_neg (Nat.not_le.mpr short)]
  rcases p.directoryLeads with here | ⟨n, _, leads⟩
  · rw [here]
    decide +kernel
  · rw [leads]
    have whole : (⟨p.absolute, p.pieces.take n ++ p.pieces.drop n⟩ : Path) = p := by
      rw [List.take_append_drop]
    exact barredAbove (p := ⟨p.absolute, p.pieces.take n⟩) (whole.symm ▸ free)

end Tree

theorem encodeInjective {s s' : String} (same : Text.encode s = Text.encode s') : s = s' := by
  have bytes : s.toByteArray = s'.toByteArray := ByteArray.ext (Array.toList_inj.mp same)
  exact String.toByteArray_inj.mp bytes

/- The file at a path is the artifact that is kept, or there is neither. -/
def Shows : Option Entry → Option String → Prop
  | none, none => True
  | some ⟨_, .file content _⟩, some text => content = .data (Text.encode text)
  | _, _ => False

structure Mirror (paths : List Path) (t : Tree) (s : Shelf) : Prop where
  settled : t.Settled
  working : s.failure = none
  ordinary : ∀ p ∈ paths, p.Ordinary
  short : ∀ p ∈ paths, p.Short
  straight : ∀ p ∈ paths, t.Straight p
  clear : ∀ p ∈ paths, (t.toward p.directory).outlook = .clear
  apart : ∀ p ∈ paths, ∀ q ∈ paths, p ≠ q → t.Apart p q
  shows : ∀ p ∈ paths, Shows (t.spot p) (s.contents? p)

namespace Mirror

variable {paths : List Path} {t : Tree} {s : Shelf} {p : Path} {d : Draft} {flags : List Flag}

theorem landing (mirror : Mirror paths t s) (used : p ∈ paths) : t.landing? p = none := by
  refine Tree.ordinaryLanding (mirror.ordinary p used) (mirror.short p used) fun id there => ?_
  have shows := mirror.shows p used
  rw [there] at shows
  cases kept : s.contents? p <;> rw [kept] at shows <;> exact shows

theorem held (mirror : Mirror paths t s) (used : p ∈ paths) :
    t.held? p = (s.contents? p).map Text.encode := by
  have shows := mirror.shows p used
  rw [Tree.held?, mirror.landing used]
  cases there : t.spot p with
  | none =>
    rw [there] at shows
    cases kept : s.contents? p with
    | none => rfl
    | some text => rw [kept] at shows; exact shows.elim
  | some e =>
    obtain ⟨id, node⟩ := e
    rw [there] at shows
    cases kept : s.contents? p with
    | none =>
      rw [kept] at shows
      cases node <;> exact shows.elim
    | some text =>
      rw [kept] at shows
      cases node with
      | file content mode => cases show content = _ from shows; rfl
      | _ => exact shows.elim

theorem fate (mirror : Mirror paths t s) (used : p ∈ paths) (renders : d.Renders p flags)
    (fits : d.overlong = false) :
    t.fate d = if s.contents? p = some (Artifact.render flags) then
      .ok .unchanged else .ok .written := by
  obtain ⟨rfl, content, _⟩ := renders
  have hindered : t.hindrance? d.path.directory = none := by
    rw [Tree.hindrance?, Tree.ordinaryFree (mirror.ordinary _ used) (mirror.short _ used),
      mirror.clear _ used]
    rfl
  have held : t.held? d.path = some d.content ↔
      s.contents? d.path = some (Artifact.render flags) := by
    rw [mirror.held used, content]
    constructor
    · intro same
      obtain ⟨text, kept, bytes⟩ := Option.map_eq_some_iff.mp same
      rw [kept, encodeInjective bytes]
    · intro kept
      rw [kept]
      rfl
  rw [Tree.fate, hindered, fits, mirror.landing used]
  simp only [held]

theorem watch (mirror : Mirror paths t s) (used : d.path ∈ paths) : ∃ name,
    Writing.Watch { d with name := name } (paths.filter (· ≠ d.path)) t t := by
  let taken := d.path.pieces ++ paths.flatMap Path.pieces
  have outside : Site.standard.name taken ∉ taken := Site.standard.free taken
  have others : ∀ q ∈ paths.filter (· ≠ d.path), q ∈ paths ∧ q ≠ d.path := by
    intro q member
    simpa using List.mem_filter.mp member
  refine ⟨Site.standard.name taken, ⟨fun q member => ?_, fun _ _ => rfl, fun _ _ => rfl,
    fun q member r member' other => ?_⟩⟩
  · obtain ⟨used', other⟩ := others q member
    refine ⟨⟨Site.standard.proper taken, fun member => outside (List.mem_append_left _ member)⟩,
      fun member => ?_, mirror.settled, mirror.straight _ used, mirror.straight q used',
      mirror.apart q used' _ used other⟩
    exact outside (List.mem_append_right _ (List.mem_flatMap.mpr ⟨q, used', member⟩))
  · exact mirror.apart q (others q member).1 r (others r member').1 other

theorem shelved (mirror : Mirror paths t s) (p : Path) (flags : List Flag) :
    s.persist p flags = if s.contents? p = some (Artifact.render flags) then
      (.ok .unchanged, { s with attempts := s.attempts + 1 })
    else (.ok .written,
      { s with attempts := s.attempts + 1 }.put p (Artifact.render flags)) := by
  rw [Shelf.persist, mirror.working]

theorem written (mirror : Mirror paths t s) (used : p ∈ paths) (renders : d.Renders p flags)
    (makeable : d.Makeable t) (differs : s.contents? p ≠ some (Artifact.render flags)) :
    Mirror paths (d.write .sound t).1
      ({ s with attempts := s.attempts + 1 }.put p (Artifact.render flags)) := by
  have fate := mirror.fate used renders makeable.fits
  obtain ⟨rfl, content, _⟩ := renders
  have begins := Writing.startUnderway mirror.settled (mirror.straight _ used) makeable.unused
  obtain ⟨underway, _⟩ := Writing.finishUnderway makeable.fresh begins
  obtain ⟨name, before⟩ := mirror.watch used
  have watch := Writing.finishWatch makeable.fresh begins before
  have written : t.fate d = .ok .written := by
    rw [fate, if_neg differs]
  obtain ⟨_, _, there⟩ := underway.stage
  obtain ⟨id, there⟩ := there written
  have others : ∀ q ∈ paths, q ≠ d.path → q ∈ paths.filter (· ≠ d.path) := fun q used other =>
    List.mem_filter.mpr ⟨used, by simpa using other⟩
  refine ⟨underway.settled, mirror.working, mirror.ordinary, mirror.short, ?_, ?_, ?_, ?_⟩
  · intro q used'
    by_cases same : q = d.path
    · exact same ▸ underway.straight
    · exact (watch.aside q (others q used' same)).straight
  · intro q used'
    by_cases same : q = d.path
    · obtain ⟨way, arrived, _⟩ := Tree.spotArrived there
      exact same ▸ congrArg Tree.Approach.outlook arrived
    · exact (watch.outlook q (others q used' same)).trans (mirror.clear q used')
  · intro q used' r used'' other
    by_cases left : q = d.path
    · subst left
      exact Tree.apartSwap (watch.aside r (others r used'' (Ne.symm other))).apart
    · by_cases right : r = d.path
      · subst right
        exact (watch.aside q (others q used' left)).apart
      · exact watch.apart q (others q used' left) r (others r used'' right) other
  · intro q used'
    rw [contentsPut, Tree.ordinaryNormal (mirror.ordinary q used'),
      Tree.ordinaryNormal (mirror.ordinary _ used)]
    by_cases same : q = d.path
    · subst same
      have spot : (d.write .sound t).1.spot d.path = _ := there
      rw [if_pos rfl, spot]
      exact congrArg Content.data content
    · have spot : (d.write .sound t).1.spot q = t.spot q := watch.spot q (others q used' same)
      rw [if_neg same, spot]
      exact mirror.shows q used'

theorem persist (mirror : Mirror paths t s) (used : p ∈ paths) (renders : d.Renders p flags)
    (makeable : d.Makeable t) :
    (d.write .sound t).2 = (s.persist p flags).1 ∧ (∃ outcome, (d.write .sound t).2 = .ok outcome) ∧
      Mirror paths (d.write .sound t).1 (s.persist p flags).2 := by
  have begins := Writing.startUnderway mirror.settled
    (mirror.straight d.path (renders.path ▸ used)) makeable.unused
  have result : (d.write .sound t).2 = t.fate d :=
    (Writing.finishUnderway makeable.fresh begins).2
  have fate := mirror.fate used renders makeable.fits
  rw [result, fate, mirror.shelved p flags]
  by_cases kept : s.contents? p = some (Artifact.render flags)
  · rw [if_pos kept, if_pos kept]
    refine ⟨rfl, ⟨_, rfl⟩, ?_⟩
    have unchanged : d.write .sound t = ((d.write .sound t).1, .ok .unchanged) := by
      rw [fate, if_pos kept] at result
      exact Prod.ext rfl result
    cases Draft.writePersisted renders.apart unchanged with
    | unchanged same read =>
      rw [same]
      exact ⟨mirror.settled, mirror.working, mirror.ordinary, mirror.short, mirror.straight,
        mirror.clear, mirror.apart, mirror.shows⟩
  · rw [if_neg kept, if_neg kept]
    exact ⟨rfl, ⟨_, rfl⟩, mirror.written used renders makeable kept⟩

theorem reads (mirror : Mirror paths t s) (used : p ∈ paths) :
    t.read p = match s.contents? p with
      | some text => .ok (Text.encode text)
      | none => .error (.system .notFound) := by
  have held := mirror.held used
  cases kept : s.contents? p with
  | some text =>
    rw [kept] at held
    exact (Tree.readHeld (mirror.straight p used) _).mpr held
  | none =>
    have shows := mirror.shows p used
    rw [kept] at shows
    have nothing : t.spot p = none := by
      cases there : t.spot p with
      | none => rfl
      | some e =>
        rw [there] at shows
        obtain ⟨id, node⟩ := e
        cases node <;> exact shows.elim
    exact Tree.readNothing (mirror.straight p used).named (mirror.clear p used)
      (mirror.landing used) nothing

theorem start {t : Tree} (settled : t.Settled) (bare : t.Bare) {paths : List Path}
    (ordinary : ∀ p ∈ paths, p.Ordinary) (short : ∀ p ∈ paths, p.Short)
    (apart : ∀ p ∈ paths, ∀ q ∈ paths, p.pieces <+: q.pieces → p = q) :
    Mirror paths t (.empty none) := by
  refine ⟨settled, rfl, ordinary, short, fun p used => Tree.bareStraight bare (ordinary p used),
    fun p used => ?_, ?_, ?_⟩
  · obtain ⟨before, _, toward⟩ := Tree.bareToward bare (ordinary p used)
    rw [toward]
  · intro p used q used' other
    refine ⟨fun under => other ?_, fun under => other ?_⟩
    · exact (apart q used' p used
        (Tree.bareUnder bare (ordinary p used) (ordinary q used') under)).symm
    · exact apart p used q used' (Tree.bareUnder bare (ordinary q used') (ordinary p used) under)
  · intro p used
    rw [Tree.bareSpot bare (ordinary p used)]
    trivial

end Mirror

def Tree.writeAll (t : Tree) : List Draft → List (Tree × Except WriteFailure Outcome)
  | [] => []
  | d :: rest => d.write .sound t :: (d.write .sound t).1.writeAll rest

def Shelf.persistAll (s : Shelf) :
    List (Path × List Flag) → List (Except WriteFailure Outcome × Shelf)
  | [] => []
  | (p, flags) :: rest => s.persist p flags :: (s.persist p flags).2.persistAll rest

def Tree.Makes (t : Tree) : List Draft → Prop
  | [] => True
  | d :: rest => d.Makeable t ∧ (d.write .sound t).1.Makes rest

/- After a write to the tree and one to the shelf: the outcome is the same and no failure, and at
each of the paths the file is what the shelf has, or there is neither. -/
def Faithful (paths : List Path) (real : Tree × Except WriteFailure Outcome)
    (kept : Except WriteFailure Outcome × Shelf) : Prop :=
  real.2 = kept.1 ∧ (∃ outcome, real.2 = .ok outcome) ∧ ∀ p ∈ paths,
    real.1.read p = match kept.2.contents? p with
      | some text => .ok (Text.encode text)
      | none => .error (.system .notFound)

theorem mirrorFaithful {paths : List Path} {t : Tree} {s : Shelf} (mirror : Mirror paths t s)
    {drafts : List Draft} {writes : List (Path × List Flag)}
    (renders : List.Forall₂ (fun d write => d.Renders write.1 write.2) drafts writes)
    (makes : t.Makes drafts) (used : ∀ write ∈ writes, write.1 ∈ paths) :
    List.Forall₂ (Faithful paths) (t.writeAll drafts) (s.persistAll writes) := by
  induction renders generalizing t s with
  | nil => exact .nil
  | @cons d write drafts rest first others ih =>
    obtain ⟨p, flags⟩ := write
    obtain ⟨same, fine, after⟩ := mirror.persist (used _ List.mem_cons_self) first makes.1
    exact .cons ⟨same, fine, fun q used => after.reads used⟩
      (ih after makes.2 fun write member => used write (List.mem_cons_of_mem _ member))

theorem shelfFaithful {t : Tree} (settled : t.Settled) (bare : t.Bare)
    {drafts : List Draft} {writes : List (Path × List Flag)}
    (renders : List.Forall₂ (fun d write => d.Renders write.1 write.2) drafts writes)
    (makes : t.Makes drafts) (ordinary : ∀ write ∈ writes, write.1.Ordinary)
    (short : ∀ write ∈ writes, write.1.Short)
    (apart : ∀ write ∈ writes, ∀ other ∈ writes,
      write.1.pieces <+: other.1.pieces → write.1 = other.1) :
    List.Forall₂ (Faithful (writes.map (·.1))) (t.writeAll drafts)
      ((Shelf.empty none).persistAll writes) := by
  have written : ∀ {P : Path → Prop}, (∀ write ∈ writes, P write.1) →
      ∀ p ∈ writes.map (·.1), P p := by
    intro P all p used
    obtain ⟨write, member, rfl⟩ := List.mem_map.mp used
    exact all write member
  refine mirrorFaithful (Mirror.start settled bare (written ordinary) (written short) ?_) renders
    makes fun write member => List.mem_map_of_mem member
  exact written fun write member => written (apart write member)

def shared : List (Path × List Flag) :=
  [(.ofText "a/x", [⟨"v"⟩]), (.ofText "a/y", []), (.ofText "a/x", [⟨"v"⟩])]

def sharedDrafts : List Draft :=
  shared.map fun write =>
    ⟨write.1, [Text.encode (Artifact.render write.2)], ".tmpAbC123", "/work"⟩

theorem Tree.makeableWords {t : Tree} {d : Draft} {words : List String} (fresh : d.Fresh)
    (same : t.words = words) (outside : d.name ∉ words) (fits : d.overlong = false) :
    d.Makeable t :=
  ⟨fresh, fun found named => outside (same ▸ named ▸ wordsNames found), fits⟩

theorem sharedFresh : ∀ d ∈ sharedDrafts, d.Fresh ∧ d.overlong = false := by
  have checked : ∀ d ∈ sharedDrafts, (d.name ≠ "" ∧ d.name ≠ "." ∧ d.name ≠ "..") ∧
      d.name ∉ d.path.pieces ∧ d.overlong = false := by decide +kernel
  intro d member
  obtain ⟨proper, apart, fits⟩ := checked d member
  exact ⟨⟨proper, apart⟩, fits⟩

theorem sharedMakes : Tree.Makes ⟨∅, []⟩ sharedDrafts := by
  obtain ⟨x, fits⟩ := sharedFresh _ List.mem_cons_self
  obtain ⟨y, fits'⟩ := sharedFresh _ (List.mem_cons_of_mem _ List.mem_cons_self)
  refine ⟨Tree.makeableWords x (show _ = [] by cbv) (by decide) fits,
    Tree.makeableWords y (show _ = ["a", "x"] by cbv) (by decide) fits',
    Tree.makeableWords x (show _ = ["a", "y", "x"] by cbv) (by decide) fits, trivial⟩

theorem sharedFaithful :
    (∀ write ∈ shared, write.1.Ordinary ∧ write.1.Short) ∧ Tree.Makes ⟨∅, []⟩ sharedDrafts ∧
      ((Shelf.empty none).persistAll shared).map (·.1) =
        [.ok .written, .ok .written, .ok .unchanged] ∧
      List.Forall₂ (Faithful (shared.map (·.1))) (Tree.writeAll ⟨∅, []⟩ sharedDrafts)
        ((Shelf.empty none).persistAll shared) := by
  have proper : ∀ write ∈ shared, write.1.Ordinary ∧ write.1.Short := by decide +kernel
  have renders : List.Forall₂ (fun d write => d.Renders write.1 write.2) sharedDrafts shared := by
    refine List.forall₂_map_left_iff.mpr (List.forall₂_same.mpr fun write member => ?_)
    exact ⟨rfl, List.append_nil _,
      Draft.nameApart (sharedFresh _ (List.mem_map_of_mem member)).1.apart⟩
  refine ⟨proper, sharedMakes, by cbv, shelfFaithful (by intro id member; cases member)
    (fun _ => rfl) renders sharedMakes (fun write member => (proper write member).1)
    (fun write member => (proper write member).2) ?_⟩
  decide +kernel

namespace Writing

/- There is no file of its own, and none came to the destination. -/
def Unmade (w : Writing) : Prop := w.file? = none ∧ w.result? ≠ some (.ok .written)

variable {d : Draft} {before now : Tree} {w : Writing}

theorem unmadeStep (overlong : d.overlong = true) (unmade : w.Unmade) (t : Tree) :
    (w.step d t).2.Unmade := by
  cases w with
  | comparing =>
    simp only [step]
    repeat' split
    all_goals simp [Unmade, failed, file?, result?]
  | climbing dir missing =>
    simp only [step]
    repeat' split
    all_goals simp [Unmade, failed, file?, result?]
  | confirming dir missing why =>
    simp only [step]
    split
    all_goals simp [Unmade, failed, file?, result?]
  | descending missing =>
    cases missing with
    | nil => simp [step, Unmade, file?, result?]
    | cons dir missing =>
      simp only [step]
      split
      all_goals simp [Unmade, file?, result?]
  | creating => simp [step, overlong, Unmade, file?, result?]
  | done result => exact unmade
  | _ => cases unmade.1

theorem unmadeRefused (unmade : w.Unmade) (why : Errno) : (w.refused d why).Unmade := by
  cases w with
  | comparing =>
    simp only [refused]
    split
    all_goals simp [Unmade, failed, file?, result?]
  | descending missing => cases missing <;> simp [refused, Unmade, file?, result?]
  | climbing | confirming | creating => simp [refused, Unmade, failed, file?, result?]
  | done result => exact unmade
  | _ => cases unmade.1

theorem reachedUnmade {may : Writing → Prop} (overlong : d.overlong = true)
    (reached : Reaches may d before now w) : w.Unmade := by
  induction reached with
  | start => simp [Unmade, file?, result?]
  | step so ih => exact unmadeStep overlong ih _
  | refuse so refusable why ih => exact unmadeRefused ih why

end Writing

theorem Path.joinedSize (directory name : String) :
    directory.utf8ByteSize + name.utf8ByteSize ≤ (joined directory name).utf8ByteSize := by
  unfold joined
  split
  all_goals
    simp only [String.utf8ByteSize_append]
    omega

theorem Draft.spelledSize {d : Draft} (relative : d.path.directory.absolute = false) :
    d.place.utf8ByteSize + d.path.directory.text.utf8ByteSize + d.name.utf8ByteSize ≤
      d.spelled.utf8ByteSize := by
  have lead := Path.joinedSize d.place d.path.directory.text
  have whole := Path.joinedSize (Path.joined d.place d.path.directory.text) d.name
  simp only [spelled, relative, Bool.false_eq_true, if_false]
  omega

theorem overlongRefused {t : Tree} {d : Draft} (apart : d.Apart) (overlong : d.overlong = true)
    (differs : t.read d.path ≠ .ok d.content) (disk : Disk) :
    ∃ reason, (d.write disk t).2 = .error ⟨d.path.text, reason⟩ := by
  obtain ⟨after, result, done⟩ : ∃ after result, d.write disk t = (after, result) := ⟨_, _, rfl⟩
  have reached := Writing.finishReached .start done
  have stands := Writing.reachedStands apart reached
  rw [done]
  cases result with
  | ok outcome =>
    cases outcome with
    | unchanged => exact absurd stands.2 differs
    | written => exact absurd rfl (Writing.reachedUnmade overlong reached).2
  | error failure =>
    refine ⟨failure.reason, ?_⟩
    rw [← stands.1]

theorem longRefused {t : Tree} (settled : t.Settled) (bare : t.Bare) {d : Draft}
    (ordinary : d.path.Ordinary) {why : Refusal} (barred : Tree.barred? d.path.directory = some why)
    (fresh : d.Fresh) (unused : ∀ {loc e}, t.get? loc = some e → loc.name ≠ d.name) :
    (d.write .sound t).2 = .error ⟨d.path.text, why.message⟩ := by
  have begins := Writing.startUnderway settled (Tree.bareStraight bare ordinary) unused
  have result := (Writing.finishUnderway fresh begins).2
  have nothing : t.held? d.path = none := by
    rw [Tree.held?, Tree.bareSpot bare ordinary]
    split <;> trivial
  have hindered : t.hindrance? d.path.directory = some why := by rw [Tree.hindrance?, barred]; rfl
  refine Eq.trans result ?_
  rw [Tree.fate, nothing, if_neg (by simp), hindered]

def deep : Path := ⟨false, List.replicate 18 (String.ofList (List.replicate 250 'a'))⟩

theorem deepOrdinary : deep.Ordinary := by decide +kernel

theorem deepBarred : Tree.barred? deep.directory = some (.system .nameTooLong) := by
  decide +kernel

/- It is short itself, and the path of a file beside it is not. -/
def tight : Path :=
  let long (n : Nat) : String := .ofList (List.replicate n 'a')
  ⟨false, List.replicate 16 (long 250) ++ [long 69, "a"]⟩

theorem tightOrdinary : tight.Ordinary ∧ tight.Short := by
  constructor
  all_goals decide +kernel

def tightDraft : Draft := ⟨tight, [], ".tmpAbC123", "/work"⟩

theorem tightDirectory :
    tight.directory.absolute = false ∧ 4085 ≤ tight.directory.text.utf8ByteSize := by
  decide +kernel

theorem tightOverlong : tightDraft.overlong = true := by
  have spelled := Draft.spelledSize (d := tightDraft) tightDirectory.1
  have directory := tightDirectory.2
  have place : tightDraft.place.utf8ByteSize = 5 := rfl
  have name : tightDraft.name.utf8ByteSize = 10 := rfl
  have path : tightDraft.path = tight := rfl
  rw [place, name, path] at spelled
  have long : Tree.pathLimit ≤ tightDraft.spelled.utf8ByteSize := by
    rw [Tree.pathLimit]
    omega
  rw [Draft.overlong, decide_eq_true long, Bool.or_true]

theorem tightRenders : tightDraft.Renders tight [] :=
  ⟨rfl, rfl, Draft.nameApart (by decide +kernel)⟩

theorem tightRefused : ∃ reason,
    (tightDraft.write .sound ⟨∅, []⟩).2 = .error ⟨tight.text, reason⟩ := by
  obtain ⟨ordinary, short⟩ := tightOrdinary
  have bare : Tree.Bare ⟨∅, []⟩ := fun _ => rfl
  have nothing := Tree.bareSpot bare ordinary
  have lands : Tree.landing? ⟨∅, []⟩ tight = none :=
    Tree.ordinaryLanding ordinary short fun id => by rw [nothing]; rintro ⟨⟩
  obtain ⟨before, _, toward⟩ := Tree.bareToward bare ordinary
  have clear : (Tree.toward ⟨∅, []⟩ tight.directory).outlook = .clear := by rw [toward]
  have missing := Tree.readNothing (Tree.ordinaryNamed ordinary) clear lands nothing
  refine overlongRefused tightRenders.apart tightOverlong ?_ .sound
  intro read
  cases missing.symm.trans read

theorem deepUnfaithful :
    (deep.Ordinary ∧
      (Tree.persist ⟨∅, []⟩ .standard .sound deep []).2 =
        .error ⟨deep.text, "File name too long (os error 36)"⟩ ∧
      ((Shelf.empty none).persist deep []).1 = .ok .written) ∧
    tight.Ordinary ∧ tight.Short ∧ tightDraft.Renders tight [] ∧
      (∃ reason, (tightDraft.write .sound ⟨∅, []⟩).2 = .error ⟨tight.text, reason⟩) ∧
      ((Shelf.empty none).persist tight []).1 = .ok .written := by
  have settled : (⟨∅, []⟩ : Tree).Settled := by intro id member; cases member
  refine ⟨⟨deepOrdinary, ?_, rfl⟩, tightOrdinary.1, tightOrdinary.2, tightRenders, tightRefused, rfl⟩
  exact longRefused (d := Tree.draft ⟨∅, []⟩ .standard deep []) settled (fun _ => rfl) deepOrdinary
    deepBarred (Tree.draftFresh ..) (Tree.draftUnused _ _ _ _)

end BuildProbe
