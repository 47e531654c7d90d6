import BuildProbe.Proofs.Artifact.Harmless
import BuildProbe.Proofs.Artifact.Mirror
import BuildProbe.Proofs.Tree.Opening

/-!
When a write succeeds. As far as the names of a path lead to directories, and as long as the first
one that does not is missing, each step of a writing finds what it needs, and the artifact gets to
its place unless a directory is there. When a name on the way stands for something that leads into
no directory, the writing comes to it before it changes anything, and stops.
-/
namespace BuildProbe

open Text (Bytes)

def Path.stairs (absolute : Bool) (before : List String) : List String → List Path
  | name :: next :: rest =>
    ⟨absolute, before ++ [name]⟩ :: stairs absolute (before ++ [name]) (next :: rest)
  | _ => []

namespace Tree

theorem ordinaryFits {p : Path} (ordinary : p.Ordinary) (short : p.Short) : Fits p := by
  refine ⟨ordinary.plain, unfitNone (Nat.not_le.mpr short) ?_, ordinary.fitting⟩
  simp [Path.isEmpty, ordinary.filled]

end Tree

namespace Writing

variable {d : Draft} {before now : Tree} {w : Writing}

/- Nothing stands in the way of a writing: what it still has to make is missing, and all the rest
is there. -/
def Fares (d : Draft) (now : Tree) : Writing → Prop
  | .comparing => ∃ way before name rest, now.Opening d.path way before name rest
  | .climbing dir missing => ∃ way before name rest, now.Opening d.path way before name rest ∧
      (rest = [] ∧ dir = d.path.directory ∧ missing = [] ∨
        ∃ upper lower, rest = upper ++ lower ∧ lower ≠ [] ∧
          dir = ⟨d.path.absolute, before ++ name :: upper⟩ ∧
          missing = Path.stairs d.path.absolute (before ++ name :: upper) lower)
  | .confirming dir missing _ => dir = d.path.directory ∧ missing = [] ∧
      ∃ way before name, now.Opening d.path way before name []
  | .descending missing => ∃ way before name rest, now.Opening d.path way before name rest ∧
      missing = Path.stairs d.path.absolute before (name :: rest)
  | .discarding .. => False
  | .done result => ∃ outcome, result = .ok outcome
  | _ => ∃ way before name, now.Opening d.path way before name []

theorem comparingGoes (ordinary : d.path.Ordinary) : step d now .comparing =
    (now, if now.read d.path = .ok d.content then .done (.ok .unchanged)
      else .climbing d.path.directory []) := by
  have filled : d.path.isEmpty = false := by simp [Path.isEmpty, ordinary.filled]
  rw [step, if_neg (by simp [filled])]
  cases now.read d.path with
  | error why => rfl
  | ok bytes =>
    by_cases same : bytes = d.content
    · rw [if_pos (congrArg Except.ok same)]
      exact if_pos same
    · rw [if_neg fun equal => same (Except.ok.inj equal)]
      exact if_neg same

theorem directoryNamed (ordinary : d.path.Ordinary) {upper : List String} {last : String}
    (pieces : d.path.pieces = upper ++ [last]) (filled : upper ≠ []) :
    d.path.directory = ⟨d.path.absolute, upper⟩ := by
  rw [Path.directoryProper (Tree.ordinaryProper ordinary) ordinary.relative pieces, if_neg filled,
    ordinary.relative]

theorem comparingFares (ordinary : d.path.Ordinary) (fares : Fares d now .comparing) :
    Fares d (step d now .comparing).1 (step d now .comparing).2 := by
  obtain ⟨way, before, name, rest, opening⟩ := fares
  rw [comparingGoes ordinary]
  split
  · exact ⟨_, rfl⟩
  · refine ⟨way, before, name, rest, opening, ?_⟩
    by_cases bare : rest = []
    · exact .inl ⟨bare, rfl, rfl⟩
    · obtain ⟨upper, last, rfl⟩ : ∃ upper last, rest = upper ++ [last] :=
        ⟨_, _, (List.dropLast_append_getLast bare).symm⟩
      have pieces : d.path.pieces = (before ++ name :: upper) ++ [last] := by
        rw [opening.pieces, List.append_assoc]
        rfl
      exact .inr ⟨upper, [last], rfl, List.cons_ne_nil _ _, directoryNamed ordinary pieces
        (List.append_ne_nil_of_right_ne_nil _ (List.cons_ne_nil _ _)), rfl⟩

theorem stairsCons {absolute : Bool} {before lower : List String} {name : String}
    (more : lower ≠ []) : Path.stairs absolute before (name :: lower) =
      ⟨absolute, before ++ [name]⟩ :: Path.stairs absolute (before ++ [name]) lower := by
  cases lower with
  | nil => exact absurd rfl more
  | cons next rest => rw [Path.stairs]

theorem climbingFares (ordinary : d.path.Ordinary) (short : d.path.Short) {dir : Path}
    {missing : List Path} (fares : Fares d now (.climbing dir missing)) :
    Fares d (step d now (.climbing dir missing)).1 (step d now (.climbing dir missing)).2 := by
  have proper := Tree.ordinaryProper ordinary
  have fits := Tree.ordinaryFits ordinary short
  obtain ⟨way, before, name, rest, opening, ways⟩ := fares
  rcases ways with ⟨rfl, rfl, rfl⟩ | ⟨upper, lower, rfl, more, rfl, rfl⟩
  · simp only [step, Path.directoryFilled, opening.mkdirThere proper fits ordinary.relative]
    exact ⟨rfl, rfl, way, before, name, opening⟩
  · have filled : Path.isEmpty ⟨d.path.absolute, before ++ name :: upper⟩ = false := by
      simp [Path.isEmpty]
    have leads : (⟨d.path.absolute, before ++ name :: upper⟩ : Path).Leads d.path :=
      Tree.leadsThrough (by rw [opening.pieces, List.append_assoc]; rfl) more
    rcases List.eq_nil_or_concat upper with rfl | ⟨upper, last, rfl⟩
    · obtain ⟨next, rest, rfl⟩ := List.exists_cons_of_ne_nil more
      simp only [step, filled, opening.mkdir proper fits]
      exact ⟨_, _, _, _, opening.made proper fits, rfl⟩
    · have further : before ++ name :: (upper ++ [last]) = before ++ name :: upper ++ [last] := by
        simp
      rw [List.concat_eq_append] at leads filled ⊢
      rw [further] at leads filled ⊢
      have higher : (⟨d.path.absolute, before ++ name :: upper ++ [last]⟩ : Path).parent? =
          some ⟨d.path.absolute, before ++ name :: upper⟩ :=
        Path.parentProper (Tree.leadsProper proper leads
          (List.append_ne_nil_of_right_ne_nil _ (List.cons_ne_nil _ _))) rfl
      simp only [step, filled, opening.mkdirBeyond proper fits leads (by simp), higher]
      refine ⟨way, before, name, _, opening, .inr ⟨upper, last :: lower, by simp, by simp, rfl, ?_⟩⟩
      rw [stairsCons more]

theorem descendingFares (ordinary : d.path.Ordinary) (short : d.path.Short)
    {missing : List Path} (fares : Fares d now (.descending missing)) :
    Fares d (step d now (.descending missing)).1 (step d now (.descending missing)).2 := by
  have proper := Tree.ordinaryProper ordinary
  have fits := Tree.ordinaryFits ordinary short
  obtain ⟨way, before, name, rest, opening, rfl⟩ := fares
  cases rest with
  | nil => exact ⟨way, before, name, opening⟩
  | cons next rest =>
    rw [Path.stairs]
    simp only [step, opening.mkdir proper fits]
    exact ⟨_, _, _, _, opening.made proper fits, rfl⟩

theorem pavedUnused {loc : Location} {e : Entry} (fresh : d.Fresh)
    (unused : ∀ {loc e}, before.get? loc = some e → loc.name ≠ d.name)
    (paved : before.Paved now d.path) (found : now.get? loc = some e) : loc.name ≠ d.name := by
  cases known : before.get? loc with
  | some old => exact unused known
  | none =>
    obtain ⟨_, part, ⟨n, _, rfl⟩, located⟩ := paved.made known found
    obtain ⟨slashed, place⟩ := Tree.locateSlot located
    obtain ⟨_, k, pieces⟩ := Tree.splitLastName (Tree.slotName place)
    have member : loc.name ∈ d.path.pieces := by
      refine List.mem_of_mem_take (i := n) ?_
      rw [show d.path.pieces.take n = _ from pieces]
      exact List.mem_append_right _ List.mem_cons_self
    exact fun same => fresh.apart (same ▸ member)

theorem creatingFares (ordinary : d.path.Ordinary) (short : d.path.Short)
    (fits : d.overlong = false) (unused : ∀ {loc e}, now.get? loc = some e → loc.name ≠ d.name)
    (fares : Fares d now .creating) :
    Fares d (step d now .creating).1 (step d now .creating).2 := by
  obtain ⟨way, before, name, opening⟩ := fares
  have free : now.get? ⟨Tree.standing way, d.name⟩ = none := by
    cases found : now.get? ⟨Tree.standing way, d.name⟩ with
    | none => rfl
    | some e => exact absurd rfl (unused found)
  simp only [step, fits, opening.create (Tree.ordinaryProper ordinary)
    (Tree.ordinaryFits ordinary short) ordinary.relative free]
  refine ⟨way, before, name, opening.ways (Tree.waysInsert ?_ rfl)⟩
  intro old found
  rw [free] at found
  cases found

theorem stepFares (makeable : d.Makeable before) (ordinary : d.path.Ordinary)
    (short : d.path.Short) (stands : Stands Disk.sound.Refuses d before now w)
    (fares : Fares d now w) :
    Fares d (w.step d now).1 (w.step d now).2 := by
  cases w with
  | comparing => exact comparingFares ordinary fares
  | climbing dir missing => exact climbingFares ordinary short fares
  | confirming dir missing why =>
    obtain ⟨rfl, rfl, way, before, name, opening⟩ := fares
    have there := opening.isDirectory (Tree.ordinaryProper ordinary)
      (Tree.ordinaryFits ordinary short) ordinary.relative
    rw [step, if_pos there]
    exact ⟨way, before, name, [], opening, rfl⟩
  | descending missing => exact descendingFares ordinary short fares
  | creating =>
    exact creatingFares ordinary short makeable.fits
      (pavedUnused makeable.fresh makeable.unused stands) fares
  | filling file chunks =>
    cases chunks with
    | nil => exact fares
    | cons chunk chunks =>
      obtain ⟨way, before, name, opening⟩ := fares
      exact ⟨way, before, name, opening.ways (now.waysAppend file chunk)⟩
  | syncing file => exact fares
  | examining file =>
    simp only [step]
    split
    · exact fares
    · exact fares
  | permitting file mode =>
    obtain ⟨way, before, name, opening⟩ := fares
    exact ⟨way, before, name, opening.ways (now.waysSetMode file mode)⟩
  | replacing file =>
    obtain ⟨way, before, name, opening⟩ := fares
    obtain ⟨ground, mode, drafted, _⟩ := stands
    have moved := opening.rename (Tree.ordinaryProper ordinary)
      (Tree.ordinaryFits ordinary short) drafted.draft
    simp only [step, moved]
    exact ⟨_, rfl⟩
  | discarding file why => exact fares.elim
  | done result => exact fares

theorem reachedFares (makeable : d.Makeable before) (ordinary : d.path.Ordinary)
    (short : d.path.Short) (starts : Fares d before .comparing)
    (reached : Reaches Disk.sound.Refuses d before now w) : Fares d now w := by
  have apart := Draft.nameApart makeable.fresh.apart
  induction reached with
  | start => exact starts
  | step so ih => exact stepFares makeable ordinary short (reachedStands apart so) ih
  | refuse so refused why ih => exact absurd refused (Disk.soundDoes _)

def Stuck (d : Draft) (before : Tree) (stop : List String) (now : Tree) : Writing → Prop
  | .comparing => now = before
  | .climbing dir _ => now = before ∧ dir.Leads d.path ∧ ∃ lower, dir.pieces = stop ++ lower
  | .confirming dir .. => now = before ∧ before.isDirectory dir = false
  | .done result => ∃ failure, result = .error failure
  | _ => False

section

variable {front rest : List String} {name : String} {way : List Nat} {e : Entry}

theorem comparingStuck (ordinary : d.path.Ordinary) (more : rest ≠ [])
    (pieces : d.path.pieces = front ++ name :: rest)
    (shut : ∀ beyond, before.walk true Tree.linkLimit (before.base d.path) (front ++ [name]) ≠
      .ok (.inside beyond)) (stuck : Stuck d before (front ++ [name]) now .comparing) :
    Stuck d before (front ++ [name]) (step d now .comparing).1 (step d now .comparing).2 := by
  cases show now = before from stuck
  have whole : d.path.pieces = (front ++ [name]) ++ rest := by
    rw [pieces, List.append_assoc]
    rfl
  rw [comparingGoes ordinary]
  split
  · rename_i read
    obtain ⟨_, _, loc, e, led⟩ := Tree.readEnd read
    obtain ⟨why, failed⟩ := Tree.walkShut shut more true
    rw [whole, failed] at led
    cases led
  · obtain ⟨upper, last, rfl⟩ : ∃ upper last, rest = upper ++ [last] :=
      ⟨_, _, (List.dropLast_append_getLast more).symm⟩
    have own : d.path.pieces = front ++ [name] ++ upper ++ [last] := by
      rw [whole, ← List.append_assoc]
    rw [directoryNamed ordinary own (by simp)]
    exact ⟨rfl, Tree.leadsThrough own (List.cons_ne_nil _ _), upper, rfl⟩

theorem climbingStuck (ordinary : d.path.Ordinary) (short : d.path.Short)
    (led : before.walk true Tree.linkLimit (before.base d.path) front = .ok (.inside way))
    (there : before.get? ⟨Tree.standing way, name⟩ = some e)
    (shut : ∀ beyond, before.walk true Tree.linkLimit (before.base d.path) (front ++ [name]) ≠
      .ok (.inside beyond)) {dir : Path} {missing : List Path}
    (stuck : Stuck d before (front ++ [name]) now (.climbing dir missing)) :
    Stuck d before (front ++ [name]) (step d now (.climbing dir missing)).1
      (step d now (.climbing dir missing)).2 := by
  obtain ⟨rfl, leads, lower, pieces⟩ := stuck
  have filled : dir.pieces ≠ [] := by simp [pieces]
  have proper := Tree.leadsProper (Tree.ordinaryProper ordinary) leads filled
  have fits := Tree.leadsFits (Tree.ordinaryFits ordinary short) leads filled
  have base : now.base dir = now.base d.path := by
    obtain ⟨n, _, rfl⟩ := leads
    rfl
  have unentered : ∀ lower beyond, now.walk true Tree.linkLimit (now.base dir)
      (front ++ [name] ++ lower) ≠ .ok (.inside beyond) := by
    intro lower beyond led
    obtain ⟨mid, led⟩ := Tree.walkFirst led
    exact shut mid (base ▸ led)
  have closed : now.isDirectory dir = false := by
    refine Bool.eq_false_iff.mpr fun directory => ?_
    obtain ⟨beyond, led⟩ := (Tree.isDirectoryWalk fits).mp directory
    exact unentered lower beyond (pieces ▸ led)
  have empty : dir.isEmpty = false := by simp [Path.isEmpty, filled]
  simp only [step, empty]
  rw [if_neg (by simp)]
  rcases List.eq_nil_or_concat lower with rfl | ⟨lower, last, rfl⟩
  · have refused := Tree.mkdirArrived proper fits (by rw [pieces, List.append_nil]) (base ▸ led)
    rw [there, if_pos (show (some e).isSome = true from rfl)] at refused
    simp only [refused]
    exact ⟨rfl, closed⟩
  · have own : dir.pieces = front ++ [name] ++ lower ++ [last] := by
      rw [pieces, List.concat_eq_append, ← List.append_assoc]
    obtain ⟨why, refused⟩ := Tree.mkdirUnled proper fits own (unentered lower)
    have higher := Path.parentProper proper own
    simp only [refused, higher]
    split
    · exact ⟨rfl, Path.leadsTrans (Path.parentLeads higher) leads, lower, rfl⟩
    · exact ⟨rfl, closed⟩

theorem reachedStuck (ordinary : d.path.Ordinary) (short : d.path.Short) (more : rest ≠ [])
    (pieces : d.path.pieces = front ++ name :: rest)
    (led : before.walk true Tree.linkLimit (before.base d.path) front = .ok (.inside way))
    (there : before.get? ⟨Tree.standing way, name⟩ = some e)
    (shut : ∀ beyond, before.walk true Tree.linkLimit (before.base d.path) (front ++ [name]) ≠
      .ok (.inside beyond)) (reached : Reaches Disk.sound.Refuses d before now w) :
    Stuck d before (front ++ [name]) now w := by
  induction reached with
  | start => rfl
  | refuse so refused why ih => exact absurd refused (Disk.soundDoes _)
  | @step now w so stuck =>
    cases w with
    | comparing => exact comparingStuck ordinary more pieces shut stuck
    | climbing dir missing => exact climbingStuck ordinary short led there shut stuck
    | confirming dir missing why =>
      obtain ⟨rfl, closed⟩ := stuck
      rw [step, if_neg (by simp [closed])]
      exact ⟨_, rfl⟩
    | done result => exact stuck
    | _ => exact stuck.elim

end

end Writing

namespace Tree

def Ready (t : Tree) (p : Path) : Prop :=
  t.Admits p ∧ ∀ e, t.lstat p = .ok e → e.isDirectory = false

theorem baseKnown {t : Tree} {p : Path} (settled : t.Settled) (ordinary : p.Ordinary) :
    ∀ id ∈ t.base p, t.Known id := by
  rw [base, ordinary.relative]
  exact settled

end Tree

namespace Draft

open BuildProbe.Tree

variable {d : Draft} {t : Tree} {p : Path} {flags : List Flag} {way : List Nat}
  {before rest : List String} {name : String}

theorem writeFares (renders : d.Renders p flags) (makeable : d.Makeable t) (ordinary : p.Ordinary)
    (short : p.Short) (opening : t.Opening p way before name rest) :
    ∃ outcome, (d.write .sound t).2 = .ok outcome := by
  obtain ⟨rfl, _, _⟩ := renders
  exact Writing.reachedFares makeable ordinary short ⟨way, before, name, rest, opening⟩
    (Writing.finishReached .start rfl)

theorem writeOnto (renders : d.Renders p flags) (ordinary : p.Ordinary) (short : p.Short) {id : Nat}
    (pieces : p.pieces = before ++ [name])
    (led : t.walk true linkLimit (t.base p) before = .ok (.inside way))
    (there : t.get? ⟨standing way, name⟩ = some ⟨id, .directory⟩) (outcome : Outcome) :
    (d.write .sound t).2 ≠ .ok outcome := by
  have proper := ordinaryProper ordinary
  have fits := ordinaryFits ordinary short
  intro result
  have done : d.write .sound t = ((d.write .sound t).1, .ok outcome) := Prod.ext rfl result
  cases outcome with
  | unchanged =>
    have read := (writeOutcome renders done).mp rfl
    obtain ⟨_, _, loc, e, ended⟩ := readEnd read
    obtain ⟨filled, dot, up⟩ := proper.names name (by simp [pieces])
    have inside : t.walk true linkLimit (t.base p) p.pieces = .ok (.inside (id :: way)) := by
      rw [pieces]
      refine walkThrough (List.cons_ne_nil _ _) led fun links => ?_
      rw [walk, if_neg (by simp [filled, dot]), if_neg up,
        if_neg (by simp [fits.short name (by simp [pieces])]), there]
      simp only [walk]
    rw [inside] at ended
    cases ended
  | written =>
    obtain ⟨ground, loc, _, _, replaced⟩ := writeReplaced renders done
    have slot := slotArrived proper fits pieces led
    have place := replaced.place
    rw [slotGrows replaced.grown (by rw [slot]; rintro ⟨⟩), slot] at place
    obtain ⟨directory, last, _⟩ := Slot.mk.injEq .. ▸ Except.ok.inj place
    have same : loc = ⟨standing way, name⟩ := by
      obtain ⟨_, _⟩ := loc
      cases directory
      cases last
      rfl
    have solid := replaced.replaceable _ (same ▸ there)
    cases solid

theorem arrivedSucceeds (renders : d.Renders p flags) (makeable : d.Makeable t)
    (settled : t.Settled) (ordinary : p.Ordinary) (short : p.Short)
    (pieces : p.pieces = before ++ [name])
    (led : t.walk true linkLimit (t.base p) before = .ok (.inside way)) :
    (∃ outcome, (d.write .sound t).2 = .ok outcome) ↔ t.Ready p := by
  have fits := ordinaryFits ordinary short
  have found := lstatArrived (ordinaryProper ordinary) fits pieces led
  by_cases directory : ∃ id, t.get? ⟨standing way, name⟩ = some ⟨id, .directory⟩
  · obtain ⟨id, there⟩ := directory
    rw [there] at found
    constructor
    · rintro ⟨outcome, done⟩
      exact absurd done (writeOnto renders ordinary short pieces led there outcome)
    · rintro ⟨_, solid⟩
      cases solid _ found
  · have solid : ∀ e, t.get? ⟨standing way, name⟩ = some e → e.isDirectory = false := by
      intro e there
      obtain ⟨id, node⟩ := e
      cases node with
      | directory => exact absurd ⟨id, there⟩ directory
      | _ => rfl
    have known := standingKnown (walkKnown (baseKnown settled ordinary) led)
    have opening : t.Opening p way before name [] := ⟨pieces, led, known, (absurd rfl ·), solid⟩
    refine iff_of_true (writeFares renders makeable ordinary short opening)
      ⟨arrivesAdmits fits pieces led, ?_⟩
    intro e there
    rw [found] at there
    cases entry : t.get? ⟨standing way, name⟩ with
    | none =>
      rw [entry] at there
      cases there
    | some old =>
      rw [entry] at there
      cases there
      exact solid _ entry

theorem missingSucceeds (renders : d.Renders p flags) (makeable : d.Makeable t)
    (settled : t.Settled) (ordinary : p.Ordinary) (short : p.Short)
    (pieces : p.pieces = before ++ name :: rest)
    (led : t.walk true linkLimit (t.base p) before = .ok (.inside way))
    (free : t.get? ⟨standing way, name⟩ = none) :
    (∃ outcome, (d.write .sound t).2 = .ok outcome) ↔ t.Ready p := by
  have proper := ordinaryProper ordinary
  have fits := ordinaryFits ordinary short
  have known := standingKnown (walkKnown (baseKnown settled ordinary) led)
  have solid : ∀ e, t.get? ⟨standing way, name⟩ = some e → e.isDirectory = false := by
    intro e there
    rw [free] at there
    cases there
  refine iff_of_true
    (writeFares renders makeable ordinary short ⟨pieces, led, known, fun _ => free, solid⟩)
    ⟨missesAdmits proper fits pieces led free, ?_⟩
  intro e there
  rw [lstatFree proper fits pieces led free] at there
  cases there

theorem stoppedFails (renders : d.Renders p flags) (ordinary : p.Ordinary) (short : p.Short)
    {e : Entry} (pieces : p.pieces = before ++ name :: rest) (more : rest ≠ [])
    (led : t.walk true linkLimit (t.base p) before = .ok (.inside way))
    (there : t.get? ⟨standing way, name⟩ = some e)
    (shut : ∀ beyond, t.walk true linkLimit (t.base p) (before ++ [name]) ≠ .ok (.inside beyond)) :
    (∃ outcome, (d.write .sound t).2 = .ok outcome) ↔ t.Ready p := by
  obtain ⟨rfl, _, _⟩ := renders
  obtain ⟨failure, failed⟩ := Writing.reachedStuck ordinary short more pieces led there shut
    (Writing.finishReached .start rfl : Writing.Reaches Disk.sound.Refuses d t
      (d.write .sound t).1 (.done (d.write .sound t).2))
  constructor
  · rintro ⟨outcome, done⟩
    rw [failed] at done
    cases done
  · rintro ⟨admits, _⟩
    exact absurd admits (stopsBars (ordinaryProper ordinary) (ordinaryFits ordinary short) pieces
      more led there shut)

theorem writeSucceeds (renders : d.Renders p flags) (makeable : d.Makeable t) (settled : t.Settled)
    (ordinary : p.Ordinary) (short : p.Short) :
    ((∃ outcome, (d.write .sound t).2 = .ok outcome) ↔
        t.Admits p ∧ ∀ e, t.lstat p = .ok e → e.isDirectory = false) ∧
      (¬ (t.Admits p ∧ ∀ e, t.lstat p = .ok e → e.isDirectory = false) →
        ∃ reason, (d.write .sound t).2 = .error ⟨p.text, reason⟩) := by
  have succeeds : (∃ outcome, (d.write .sound t).2 = .ok outcome) ↔ t.Ready p := by
    obtain ⟨names, last, pieces⟩ : ∃ names last, p.pieces = names ++ [last] :=
      ⟨_, _, (List.dropLast_append_getLast ordinary.filled).symm⟩
    have whole : ∀ {before name rest}, names = before ++ name :: rest →
        p.pieces = before ++ name :: (rest ++ [last]) := by
      intro before name rest split
      rw [pieces, split, List.append_assoc]
      rfl
    cases t.footing (t.base p) names with
    | arrives led => exact arrivedSucceeds renders makeable settled ordinary short pieces led
    | misses split led free =>
      exact missingSucceeds renders makeable settled ordinary short (whole split) led free
    | stops split led there shut =>
      exact stoppedFails renders ordinary short (whole split)
        (List.append_ne_nil_of_right_ne_nil _ (List.cons_ne_nil _ _)) led there shut
  refine ⟨succeeds, fun unmet => ?_⟩
  cases result : (d.write .sound t).2 with
  | ok outcome => exact absurd (succeeds.mp ⟨outcome, result⟩) unmet
  | error failure =>
    have done : d.write .sound t = ((d.write .sound t).1, .error failure) := Prod.ext rfl result
    cases writePersisted renders.apart done with
    | failed paved => exact ⟨_, by rw [renders.path]⟩

end Draft

namespace Tree

variable {t : Tree} {p : Path}

theorem crossroadsAdmits :
    crossroads.Settled ∧ (Path.ofText "l/n/f").Ordinary ∧ (Path.ofText "d").Ordinary ∧
    (crossroads.draft .standard (.ofText "l/n/f") [⟨"x"⟩]).Makeable crossroads ∧
    (crossroads.draft .standard (.ofText "d") [⟨"x"⟩]).Makeable crossroads ∧
    (crossroads.persist .standard .sound (.ofText "l/n/f") [⟨"x"⟩]).2 = .ok .written ∧
    crossroads.Admits (.ofText "l/n/f") ∧
    ∃ reason, (crossroads.persist .standard .sound (.ofText "d") [⟨"x"⟩]).2 =
      .error ⟨"d", reason⟩ := by
  have settled : crossroads.Settled := by intro id member; cases member
  have ordinary : (Path.ofText "l/n/f").Ordinary := by decide +kernel
  have ordinary' : (Path.ofText "d").Ordinary := by decide +kernel
  have makeable : (crossroads.draft .standard (.ofText "l/n/f") [⟨"x"⟩]).Makeable crossroads :=
    ⟨draftFresh .., draftUnused _ _ _ _, by cbv⟩
  have makeable' : (crossroads.draft .standard (.ofText "d") [⟨"x"⟩]).Makeable crossroads :=
    ⟨draftFresh .., draftUnused _ _ _ _, by cbv⟩
  have written : (crossroads.persist .standard .sound (.ofText "l/n/f") [⟨"x"⟩]).2 =
      .ok .written := by cbv
  have there : (crossroads.lstat (.ofText "d")).map Entry.isDirectory = .ok true := by cbv
  have admits := ((Draft.writeSucceeds (draftRenders ..) makeable settled ordinary
    (by decide +kernel)).1.mp ⟨_, written⟩).1
  refine ⟨settled, ordinary, ordinary', makeable, makeable', written, admits,
    (Draft.writeSucceeds (draftRenders ..) makeable' settled ordinary' (by decide +kernel)).2 ?_⟩
  rintro ⟨_, solid⟩
  cases found : crossroads.lstat (.ofText "d") with
  | error why => rw [found] at there; cases there
  | ok e =>
    rw [found] at there
    have directory := Except.ok.inj there
    rw [solid e found] at directory
    cases directory

theorem bareNothing (bare : t.Bare) (relative : p.absolute = false) (proper : p.Proper) (e : Entry) :
    t.lstat p ≠ .ok e := by
  intro there
  obtain ⟨_, found⟩ := withPathOk.mp there
  obtain ⟨name, rest, pieces⟩ := List.exists_cons_of_ne_nil proper.filled
  obtain ⟨filled, dot, up⟩ := proper.names name (by simp [pieces])
  have base : t.base p = t.present := by rw [base, relative]; rfl
  rw [entry, resolve] at found
  cases fit : unfit? p with
  | some why => rw [fit] at found; cases found
  | none =>
    rw [fit, pieces, base] at found
    simp only [walk, filled, dot, up, or_self, if_false, bare name] at found
    split at found <;> cases found

theorem bareAdmits (bare : t.Bare) (ordinary : p.Ordinary) : t.Admits p := by
  intro part leads filled
  right
  intro further leads' longer
  have filled' : further.pieces ≠ [] := by
    cases longer with
    | inl same => exact same ▸ filled
    | inr onward =>
      obtain ⟨n, short, _⟩ := onward
      exact List.ne_nil_of_length_pos (by omega)
  have relative : further.absolute = false := by
    obtain ⟨n, _, rfl⟩ := leads'
    exact ordinary.relative
  exact bareNothing bare relative (leadsProper (ordinaryProper ordinary) leads' filled')

theorem bareReady (bare : t.Bare) (ordinary : p.Ordinary) :
    t.Admits p ∧ ∀ e, t.lstat p = .ok e → e.isDirectory = false :=
  ⟨bareAdmits bare ordinary,
    fun e there => absurd there (bareNothing bare ordinary.relative (ordinaryProper ordinary) e)⟩

theorem deepRefused :
    (⟨∅, []⟩ : Tree).Settled ∧
      (deep.Ordinary ∧
        (Admits ⟨∅, []⟩ deep ∧ ∀ e, lstat ⟨∅, []⟩ deep = .ok e → e.isDirectory = false) ∧
        (persist ⟨∅, []⟩ .standard .sound deep []).2 =
          .error ⟨deep.text, "File name too long (os error 36)"⟩) ∧
      tight.Ordinary ∧ tight.Short ∧ tightDraft.Renders tight [] ∧
        (Admits ⟨∅, []⟩ tight ∧ ∀ e, lstat ⟨∅, []⟩ tight = .ok e → e.isDirectory = false) ∧
        ∃ reason, (tightDraft.write .sound ⟨∅, []⟩).2 = .error ⟨tight.text, reason⟩ := by
  have settled : (⟨∅, []⟩ : Tree).Settled := by intro id member; cases member
  have bare : Bare ⟨∅, []⟩ := fun _ => rfl
  obtain ⟨ordinary, short⟩ := tightOrdinary
  refine ⟨settled, ⟨deepOrdinary, bareReady bare deepOrdinary, ?_⟩, ordinary, short, tightRenders,
    bareReady bare ordinary, tightRefused⟩
  exact longRefused (d := draft ⟨∅, []⟩ .standard deep []) settled bare deepOrdinary deepBarred
    (draftFresh ..) (draftUnused _ _ _ _)

end Tree
end BuildProbe
