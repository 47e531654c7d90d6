import BuildProbe.Proofs.Tree.Headway

/-!
Below its directory a path has a spot, the place of its name. Without links, a file that the path
leads to is the one at its spot. Whether a file can be moved to the path depends on the path
itself and on what is at the spot.
-/
namespace BuildProbe.Tree

open Text (Bytes)
open BuildProbe.Path (Blank)

def lastName (p : Path) : String :=
  match (splitLast p.pieces).2 with
  | .name name => name
  | _ => ""

def Named (p : Path) : Prop := (splitLast p.pieces).2 = .name (lastName p)
instance (p : Path) : Decidable (Named p) := by
  unfold Named; infer_instance

theorem properSplit {p : Path} (proper : p.Proper) :
    ∃ before, p.pieces = before ++ [lastName p] ∧
      splitLast p.pieces = (before, .name (lastName p)) := by
  obtain ⟨before, last, pieces⟩ := (List.eq_nil_or_concat p.pieces).resolve_left proper.filled
  rw [List.concat_eq_append] at pieces
  obtain ⟨filled, dot, up⟩ := proper.names last (pieces ▸ List.mem_append_right _ List.mem_cons_self)
  have split := splitLastConcat before filled
  rw [if_neg (not_or.mpr ⟨dot, up⟩), ← pieces] at split
  have name : lastName p = last := by rw [lastName, split]
  exact ⟨before, name.symm ▸ pieces, name.symm ▸ split⟩

theorem properNamed {p : Path} (proper : p.Proper) : Named p := by
  obtain ⟨before, _, split⟩ := properSplit proper
  rw [Named, split]

def place? (t : Tree) (p : Path) : Option Location :=
  match t.toward p.directory with
  | ⟨way, [], .clear⟩ => some ⟨standing way, lastName p⟩
  | _ => none

def spot (t : Tree) (p : Path) : Option Entry := (t.place? p).bind t.get?

def landing? (t : Tree) (p : Path) : Option Errno :=
  if p.hasNul then some .invalidArgument
  else if pathLimit ≤ p.text.utf8ByteSize ∨ nameTooLong (lastName p) then some .nameTooLong
  else if p.pieces.getLast? = some "" then some .notADirectory
  else match t.spot p with
    | some ⟨_, .directory⟩ => some .isADirectory
    | _ => none

theorem namedFilled {p : Path} (named : Named p) :
    ¬ Blank (lastName p) ∧ lastName p ≠ ".." ∧
      ∃ k, p.pieces = (splitLast p.pieces).1 ++ lastName p :: List.replicate k "" := by
  obtain ⟨⟨filled, dot, up⟩, pieces⟩ := splitLastName named
  exact ⟨fun blank => blank.elim filled dot, up, pieces⟩

theorem baseAbsolute (t : Tree) {p q : Path} (same : p.absolute = q.absolute) :
    t.base p = t.base q := by
  simp only [base, same]

theorem towardBefore (t : Tree) {p : Path} (named : Named p) :
    ∃ blanks, (∀ b ∈ blanks, Blank b) ∧ t.base p.directory = t.base p ∧
      t.approach (t.base p) (splitLast p.pieces).1 = (t.toward p.directory).onward t blanks := by
  obtain ⟨filled, up, k, pieces⟩ := namedFilled named
  obtain ⟨blanks, blank, ⟨absolute, before⟩ | ⟨here, relative, before⟩⟩ :=
    Path.directoryPieces filled pieces
  · have base := t.baseAbsolute absolute
    refine ⟨blanks, blank, base, ?_⟩
    rw [before, approachAppend, toward, base]
  · have base : t.base Path.here = t.base p := t.baseAbsolute relative.symm
    refine ⟨blanks, blank, here ▸ base, ?_⟩
    have stays : t.toward Path.here = ⟨t.base p, [], .clear⟩ := by
      rw [toward, base]
      rfl
    rw [here, before, stays]
    rfl

theorem slotToward {t : Tree} {p : Path} {way : List Nat} (named : Named p)
    (fit : unfit? p = none) (arrived : t.toward p.directory = ⟨way, [], .clear⟩) :
    t.slot p = .ok ⟨standing way, .name (lastName p), p.pieces.getLast? = some ""⟩ := by
  obtain ⟨blanks, blank, _, before⟩ := towardBefore t named
  have led := t.approachLeads true linkLimit (t.base p) (splitLast p.pieces).1
  have stays : (⟨way, [], .clear⟩ : Approach).onward t blanks = ⟨way, [], .clear⟩ :=
    approachBlank blank t way
  rw [before, arrived, stays] at led
  have walked : t.walk true linkLimit (t.base p) (splitLast p.pieces).1 = .ok (.inside way) := led
  have ends : splitLast p.pieces = ((splitLast p.pieces).1, .name (lastName p)) :=
    Prod.ext rfl named
  rw [slotOf fit ends, walked]

theorem renameToward {t : Tree} {p : Path} {source : Location} {e : Entry} {way : List Nat}
    (named : Named p) (arrived : t.toward p.directory = ⟨way, [], .clear⟩)
    (there : t.get? source = some e) :
    t.rename source p = match t.landing? p with
      | some why => .error why
      | none => .ok ((t.erase source).insert ⟨standing way, lastName p⟩ e) := by
  have place : t.place? p = some ⟨standing way, lastName p⟩ := by rw [place?, arrived]
  have filled : p.isEmpty = false := by
    obtain ⟨_, _, k, pieces⟩ := namedFilled named
    rw [Path.isEmpty, pieces]
    simp
  rw [rename, landing?, spot, place]
  by_cases nul : p.hasNul
  · rw [if_pos nul, if_pos nul]
  · rw [if_neg nul, if_neg nul]
    by_cases size : pathLimit ≤ p.text.utf8ByteSize
    · rw [slot, unfit?, if_pos size, if_pos (.inl size)]
      rfl
    · rw [slotToward named (unfitNone size filled) arrived]
      simp only [bind, Except.bind, taken]
      by_cases long : nameTooLong (lastName p)
      · rw [if_pos long, if_pos (.inr long)]
      · rw [if_neg long, if_neg (not_or.mpr ⟨size, long⟩)]
        by_cases slashed : p.pieces.getLast? = some ""
        · rw [if_pos slashed, if_pos (by simpa using slashed)]
        · rw [if_neg slashed, if_neg (by simpa using slashed)]
          simp only [Option.bind_some]
          cases t.get? ⟨standing way, lastName p⟩ with
          | none => simp only [there]; rfl
          | some old =>
            obtain ⟨id, node⟩ := old
            cases node <;> simp only [there] <;> rfl

structure Moved (t t' : Tree) (source target : Location) (e : Entry) : Prop where
  present : t'.present = t.present
  there : t'.get? target = some e
  gone : source ≠ target → t'.get? source = none
  directories : ∀ {loc id}, t.get? loc = some ⟨id, .directory⟩ →
    t'.get? loc = some ⟨id, .directory⟩
  others : ∀ {loc}, loc ≠ source → loc ≠ target → t'.get? loc = t.get? loc

theorem renameMoves {t : Tree} {source target : Location} {e : Entry}
    (there : t.get? source = some e)
    (file : e.isDirectory = false) (solid : ∀ id, t.get? target ≠ some ⟨id, .directory⟩) :
    t.Moved ((t.erase source).insert target e) source target e := by
  have others : ∀ {loc}, loc ≠ source → loc ≠ target →
      ((t.erase source).insert target e).get? loc = t.get? loc := by
    intro loc apart elsewhere
    rw [getInsert, if_neg elsewhere, getErase, if_neg apart]
  refine ⟨rfl, ?_, ?_, ?_, others⟩
  · rw [getInsert, if_pos rfl]
  · intro apart
    rw [getInsert, if_neg apart, getErase, if_pos rfl]
  · intro loc id found
    refine (others ?_ ?_).trans found
    · rintro rfl
      rw [there] at found
      cases found
      cases file
    · rintro rfl
      exact solid id found

theorem spotArrived {t : Tree} {p : Path} {e : Entry} (there : t.spot p = some e) :
    ∃ way, t.toward p.directory = ⟨way, [], .clear⟩ ∧
      t.get? ⟨standing way, lastName p⟩ = some e := by
  obtain ⟨loc, place, found⟩ := Option.bind_eq_some_iff.mp there
  unfold place? at place
  split at place <;> try contradiction
  rename_i way arrived
  cases Option.some.inj place
  exact ⟨way, arrived, found⟩

theorem landingNone {t : Tree} {p : Path} (lands : t.landing? p = none) :
    p.hasNul = false ∧ ¬ pathLimit ≤ p.text.utf8ByteSize ∧ nameTooLong (lastName p) = false ∧
      p.pieces.getLast? ≠ some "" ∧ ∀ id, t.spot p ≠ some ⟨id, .directory⟩ := by
  unfold landing? at lands
  split at lands <;> try contradiction
  rename_i plain
  split at lands <;> try contradiction
  rename_i fits
  split at lands <;> try contradiction
  rename_i bare
  split at lands <;> try contradiction
  rename_i free
  obtain ⟨short, name⟩ := not_or.mp fits
  exact ⟨by simpa using plain, short, by simpa using name, bare, free⟩

theorem namedNonempty {p : Path} (named : Named p) : p.isEmpty = false := by
  obtain ⟨_, _, k, pieces⟩ := namedFilled named
  rw [Path.isEmpty, pieces]
  simp

theorem statPlaced {t : Tree} {p : Path} {id mode : Nat} {content : Content} (named : Named p)
    (lands : t.landing? p = none) (there : t.spot p = some ⟨id, .file content mode⟩) :
    t.stat p = .ok ⟨id, .file content mode⟩ := by
  obtain ⟨plain, short, name, bare, _⟩ := landingNone lands
  obtain ⟨way, arrived, found⟩ := spotArrived there
  have here := slotToward named (unfitNone short (namedNonempty named)) arrived
  rw [decide_eq_false bare] at here
  exact statOk.mpr ⟨plain, _, resolvePlaced here name found rfl true, rfl⟩

section

variable {t : Tree} {goal : Goal} {piece : String} {blanks rest : List String}

theorem onwardWell {a : Approach} (blank : ∀ b ∈ blanks, Blank b) (straight : a.outlook ≠ .astray)
    (leads : ((a.onward t blanks).onward t (piece :: rest)).Leads (.ok goal)) :
    ∃ way, a = ⟨way, [], .clear⟩ := by
  obtain ⟨way, ahead, outlook⟩ := a
  cases ahead with
  | cons m l =>
    cases outlook with
    | clear =>
      rw [onwardAhead, ventureBlank blank, onwardAhead] at leads
      cases leads
    | _ => cases leads
  | nil =>
    cases outlook with
    | clear => exact ⟨way, rfl⟩
    | overlong => cases leads
    | shut beyond =>
      cases beyond with
      | cons next beyond => cases leads
      | nil => cases blanks <;> cases leads
    | astray => exact absurd rfl straight

theorem lastWell {way : List Nat} {id mode k : Nat} {content : Content} (named : ¬ Blank piece)
    (up : piece ≠ "..") (solid : ∀ id target,
      t.get? ⟨standing way, piece⟩ ≠ some ⟨id, .link target⟩)
    (leads : (t.approach way (piece :: List.replicate k "")).Leads (.ok goal))
    (filed : goal.entry = ⟨id, .file content mode⟩) : nameTooLong piece = false ∧ k = 0 ∧
      ∃ id content mode, t.get? ⟨standing way, piece⟩ = some ⟨id, .file content mode⟩ := by
  have skip : ¬(piece = "" ∨ piece = ".") := named
  rw [approach, if_neg skip, if_neg up] at leads
  by_cases long : nameTooLong piece
  · rw [if_pos long] at leads
    cases leads
  · rw [if_neg long] at leads
    cases found : t.get? ⟨standing way, piece⟩ with
    | none =>
      rw [found] at leads
      cases leads
    | some e =>
      rw [found] at leads
      obtain ⟨other, node⟩ := e
      cases node with
      | directory =>
        have slashes : ∀ b ∈ List.replicate k "", Blank b := fun b member =>
          .inl (List.eq_of_mem_replicate member)
        have inside := approachBlank slashes t (other :: way)
        simp only [inside] at leads
        cases leads
        cases filed
      | link target => exact absurd found (solid other target)
      | file held bits =>
        cases k with
        | succ k => cases leads
        | zero => exact ⟨by simpa using long, rfl, other, held, bits, rfl⟩

end

theorem statSpot {t : Tree} {p : Path} {id mode : Nat} {content : Content} (named : Named p)
    (straight : (t.toward p.directory).outlook ≠ .astray)
    (solid : ∀ id target, t.spot p ≠ some ⟨id, .link target⟩) :
    t.stat p = .ok ⟨id, .file content mode⟩ ↔
      t.landing? p = none ∧ t.spot p = some ⟨id, .file content mode⟩ := by
  refine ⟨fun led => ?_, fun ⟨lands, there⟩ => statPlaced named lands there⟩
  obtain ⟨plain, goal, resolved, filed⟩ := statOk.mp led
  have short : ¬ pathLimit ≤ p.text.utf8ByteSize := by
    intro long
    rw [resolve, unfit?, if_pos long] at resolved
    cases resolved
  obtain ⟨filled, up, k, pieces⟩ := namedFilled named
  obtain ⟨blanks, blank, base, before⟩ := towardBefore t named
  have fit := unfitNone short (namedNonempty named)
  have leads := t.approachLeads true linkLimit (t.base p) p.pieces
  rw [resolveFit fit] at resolved
  rw [resolved, pieces, approachAppend, before] at leads
  obtain ⟨way, arrived⟩ := onwardWell blank straight leads
  have there : t.spot p = t.get? ⟨standing way, lastName p⟩ := by
    rw [spot, place?, arrived]
    rfl
  rw [arrived, onwardArrived, approachBlank blank, onwardArrived] at leads
  obtain ⟨name, rfl, _, _, _, found⟩ := lastWell filled up (there ▸ solid) leads filed
  have bare : p.pieces.getLast? ≠ some "" := by
    rw [pieces, List.replicate_zero, List.getLast?_concat]
    exact fun empty => filled (.inl (Option.some.inj empty))
  have lands : t.landing? p = none := by
    rw [landing?, if_neg (by simp [plain]), if_neg (not_or.mpr ⟨short, by simp [name]⟩),
      if_neg bare, there, found]
  have held := statPlaced named lands (there.trans found)
  rw [led] at held
  cases held
  exact ⟨lands, there.trans found⟩

theorem readSpot {t : Tree} {p : Path} {bytes : Bytes} (named : Named p)
    (straight : (t.toward p.directory).outlook ≠ .astray)
    (solid : ∀ id target, t.spot p ≠ some ⟨id, .link target⟩) :
    t.read p = .ok bytes ↔ t.landing? p = none ∧
      ∃ id content mode, t.spot p = some ⟨id, .file content mode⟩ ∧ content.bytes = bytes := by
  rw [readOk]
  constructor
  · rintro ⟨id, content, mode, led, same⟩
    obtain ⟨lands, there⟩ := (statSpot named straight solid).mp led
    exact ⟨lands, id, content, mode, there, same⟩
  · rintro ⟨lands, id, content, mode, there, same⟩
    exact ⟨id, content, mode, statPlaced named lands there, same⟩

theorem readNothing {t : Tree} {p : Path} (named : Named p)
    (clear : (t.toward p.directory).outlook = .clear) (lands : t.landing? p = none)
    (nothing : t.spot p = none) : t.read p = .error (.system .notFound) := by
  obtain ⟨plain, short, name, _⟩ := landingNone lands
  obtain ⟨filled, up, k, pieces⟩ := namedFilled named
  obtain ⟨blanks, blank, base, before⟩ := towardBefore t named
  have missing : t.walk true linkLimit (t.base p) p.pieces = .error .notFound := by
    have leads := t.approachLeads true linkLimit (t.base p) p.pieces
    have whole := congrArg (t.approach (t.base p)) pieces
    rw [approachAppend, before] at whole
    rw [whole] at leads
    generalize arrived : t.toward p.directory = a at leads clear
    obtain ⟨way, ahead, outlook⟩ := a
    subst clear
    cases ahead with
    | cons m l =>
      rw [onwardAhead, ventureBlank blank, onwardAhead] at leads
      exact leads
    | nil =>
      have skip : ¬(lastName p = "" ∨ lastName p = ".") := filled
      have absent : t.get? ⟨standing way, lastName p⟩ = none := by
        rw [spot, place?, arrived] at nothing
        exact nothing
      rw [onwardArrived, approachBlank blank, onwardArrived, approach, if_neg skip, if_neg up,
        if_neg (by simp [name]), absent] at leads
      exact leads
  rw [read, stat, withPath, if_neg (by simp [plain]), entry,
    resolveFit (unfitNone short (namedNonempty named)), missing]
  rfl

def bits (t : Tree) (p : Path) : Nat :=
  match t.spot p with
  | some ⟨_, .file _ mode⟩ => mode
  | _ => draftMode

theorem fileModeSpot {t : Tree} {p : Path} (named : Named p)
    (straight : (t.toward p.directory).outlook ≠ .astray)
    (solid : ∀ id target, t.spot p ≠ some ⟨id, .link target⟩) (lands : t.landing? p = none) :
    (t.fileMode? p).getD draftMode = t.bits p := by
  cases asked : t.fileMode? p with
  | some mode =>
    obtain ⟨id, content, led⟩ := fileModeSome.mp asked
    rw [bits, ((statSpot named straight solid).mp led).2]
    rfl
  | none =>
    unfold bits
    split
    · rename_i id content mode there
      have told := fileModeSome.mpr ⟨id, content, statPlaced named lands there⟩
      rw [asked] at told
      cases told
    · rfl

end BuildProbe.Tree
