import BuildProbe.Proofs.Tree.Footing
import Mathlib.Data.List.Basic

/-!
An opening for a path. The names before lead to a directory, and there the next name is missing, or
it is the last one and no directory. Then each call that a writing makes for the path is done: the
directories that are missing are made one after another, each behind an opening again, and once
none is missing a file can be made in the last one and moved into place.
-/
namespace BuildProbe.Tree

open Text (Bytes)

variable {t t' : Tree} {p : Path} {way : List Nat} {before rest : List String} {name next : String}

/- The names before lead to a directory. The next name is missing there, or it is the last one and
no directory. -/
structure Opening (t : Tree) (p : Path) (way : List Nat) (before : List String) (name : String)
    (rest : List String) : Prop where
  pieces : p.pieces = before ++ name :: rest
  led : t.walk true linkLimit (t.base p) before = .ok (.inside way)
  known : t.Known (standing way)
  free : rest ≠ [] → t.get? ⟨standing way, name⟩ = none
  solid : ∀ e, t.get? ⟨standing way, name⟩ = some e → e.isDirectory = false

namespace Opening

theorem mkdir (opening : t.Opening p way before name (next :: rest)) (proper : p.Proper)
    (fits : Fits p) : t.mkdir ⟨p.absolute, before ++ [name]⟩ =
      .ok (t.add ⟨standing way, name⟩ .directory) := by
  have leads : (⟨p.absolute, before ++ [name]⟩ : Path).Leads p :=
    leadsThrough (by rw [opening.pieces, List.append_assoc]; rfl) (List.cons_ne_nil next rest)
  have filled : before ++ [name] ≠ [] := List.append_ne_nil_of_right_ne_nil _ (List.cons_ne_nil _ _)
  rw [mkdirArrived (leadsProper proper leads filled) (leadsFits fits leads filled) rfl opening.led,
    opening.free (List.cons_ne_nil _ _)]
  rfl

theorem made (opening : t.Opening p way before name (next :: rest)) (proper : p.Proper)
    (fits : Fits p) : (t.add ⟨standing way, name⟩ .directory).Opening p (t.freshId :: way)
      (before ++ [name]) next rest := by
  have free := opening.free (List.cons_ne_nil next rest)
  have member : name ∈ p.pieces := opening.pieces ▸ List.mem_append_right _ List.mem_cons_self
  obtain ⟨filled, dot, up⟩ := proper.names name member
  have here : (t.add ⟨standing way, name⟩ .directory).get? ⟨standing way, name⟩ =
      some ⟨t.freshId, .directory⟩ := by rw [getAdd, if_pos rfl]
  have nothing : (t.add ⟨standing way, name⟩ .directory).get? ⟨t.freshId, next⟩ = none :=
    freshNothing (knownOld opening.known) next
  have still : (t.add ⟨standing way, name⟩ .directory).walk true linkLimit (t.base p) before =
      .ok (.inside way) := by
    rw [walkGrows (growsAdd free _) (by rw [opening.led]; rintro ⟨⟩), opening.led]
  refine ⟨by rw [opening.pieces, List.append_assoc]; rfl, ?_, .inr ⟨_, here⟩, fun _ => nothing, ?_⟩
  · refine walkThrough (List.cons_ne_nil _ _) still fun links => ?_
    rw [walk, if_neg (by simp [filled, dot]), if_neg up, if_neg (by simp [fits.short name member]),
      here]
    simp only [walk]
  · intro e found
    cases nothing.symm.trans found

theorem ways (opening : t.Opening p way before name []) (ways : t.SameWays t') :
    t'.Opening p way before name [] := by
  have routes : t'.Routes t := ⟨ways.present, fun found passable => (ways.same passable).mpr found⟩
  have base : t'.base p = t.base p := by simp only [base, ways.present]
  have still : t'.walk true linkLimit (t.base p) before = .ok (.inside way) := by
    refine walkBack routes opening.led ?_
    intro loc e ended
    cases ended
  refine ⟨opening.pieces, base ▸ still, ?_, (absurd rfl ·), ?_⟩
  · cases opening.known with
    | inl top => exact .inl top
    | inr there =>
      obtain ⟨loc, found⟩ := there
      exact .inr ⟨loc, (ways.same rfl).mpr found⟩
  · intro e found
    cases directory : e.isDirectory with
    | false => rfl
    | true =>
      have old := (ways.same (directoryPassable directory)).mp found
      rw [opening.solid e old] at directory
      cases directory

theorem mkdirBeyond {upper : List String} {last : String}
    (opening : t.Opening p way before name rest) (proper : p.Proper) (fits : Fits p)
    (leads : (⟨p.absolute, before ++ name :: upper ++ [last]⟩ : Path).Leads p) (more : rest ≠ []) :
    t.mkdir ⟨p.absolute, before ++ name :: upper ++ [last]⟩ = .error (.system .notFound) := by
  have member : name ∈ p.pieces := opening.pieces ▸ List.mem_append_right _ List.mem_cons_self
  have filled : before ++ name :: upper ++ [last] ≠ [] :=
    List.append_ne_nil_of_right_ne_nil _ (List.cons_ne_nil _ _)
  have missing : t.walk true linkLimit (t.base p) (before ++ name :: upper) = .error .notFound :=
    walkThrough (List.cons_ne_nil _ _) opening.led fun _ =>
      walkFree (proper.names name member) (fits.short name member) (opening.free more) upper
  exact mkdirMissing (leadsProper proper leads filled) (leadsFits fits leads filled) rfl missing

theorem enters (opening : t.Opening p way before name []) (proper : p.Proper) (fits : Fits p)
    (relative : p.absolute = false) : p.directory.hasNul = false ∧
      t.resolve true p.directory = .ok (.inside way) := by
  rw [Path.directoryProper proper relative opening.pieces]
  by_cases bare : before = []
  · have led := opening.led
    rw [bare, walk] at led
    have base : t.base .here = t.base p := by rw [base, base, relative]; rfl
    refine ⟨by rw [if_pos bare]; decide +kernel, ?_⟩
    rw [if_pos bare, resolveFit (by decide +kernel), ← led, base]
    simp [Path.here, walk]
  · rw [if_neg bare]
    have leads : (⟨p.absolute, before⟩ : Path).Leads p :=
      leadsThrough opening.pieces (List.cons_ne_nil _ _)
    rw [relative] at leads
    have short := leadsFits fits leads bare
    refine ⟨short.plain, ?_⟩
    rw [resolveFit short.fit, show t.base ⟨false, before⟩ = t.base p by rw [base, base, relative]]
    exact opening.led

theorem isDirectory (opening : t.Opening p way before name []) (proper : p.Proper) (fits : Fits p)
    (relative : p.absolute = false) : t.isDirectory p.directory = true := by
  obtain ⟨plain, led⟩ := opening.enters proper fits relative
  rw [Tree.isDirectory, stat, withPath, if_neg (by simp [plain]), entry, led]
  rfl

theorem mkdirThere (opening : t.Opening p way before name []) (proper : p.Proper) (fits : Fits p)
    (relative : p.absolute = false) :
    t.mkdir p.directory = .error (.system .alreadyExists) := by
  rw [Path.directoryProper proper relative opening.pieces]
  by_cases bare : before = []
  · rw [if_pos bare, mkdirHere]
  · rw [if_neg bare]
    obtain ⟨above, last, rfl⟩ : ∃ above last, before = above ++ [last] :=
      ⟨_, _, (List.dropLast_append_getLast bare).symm⟩
    have leads : (⟨p.absolute, above ++ [last]⟩ : Path).Leads p :=
      leadsThrough opening.pieces (List.cons_ne_nil _ _)
    have base : t.base ⟨p.absolute, above ++ [last]⟩ = t.base p := rfl
    obtain ⟨mid, led⟩ := walkFirst opening.led
    rw [← relative, mkdirArrived (leadsProper proper leads bare) (leadsFits fits leads bare) rfl led]
    cases there : t.get? ⟨standing mid, last⟩ with
    | some e => rfl
    | none =>
      have member : last ∈ p.pieces := by simp [opening.pieces]
      have missing : t.walk true linkLimit (t.base p) (above ++ [last]) = .error .notFound :=
        walkThrough (List.cons_ne_nil _ _) led fun _ =>
          walkFree (proper.names last member) (fits.short last member) there []
      rw [opening.led] at missing
      cases missing

theorem create (opening : t.Opening p way before name []) (proper : p.Proper) (fits : Fits p)
    (relative : p.absolute = false) {own : String} (unused : t.get? ⟨standing way, own⟩ = none) :
    t.create p.directory own = .ok (⟨standing way, own⟩,
      t.add ⟨standing way, own⟩ (.file (.data []) draftMode)) := by
  obtain ⟨plain, led⟩ := opening.enters proper fits relative
  have entered : t.enter p.directory = .ok (standing way) := by rw [enter, led]; rfl
  simp only [Tree.create, withPath, plain, entered, bind, Except.bind, unused]
  rfl

theorem rename (opening : t.Opening p way before name []) (proper : p.Proper) (fits : Fits p)
    {source : Location} {e : Entry} (there : t.get? source = some e) :
    t.rename source p = .ok ((t.erase source).insert ⟨standing way, name⟩ e) := by
  have member : name ∈ p.pieces := opening.pieces ▸ List.mem_append_right _ List.mem_cons_self
  have free : t.taken ⟨standing way, .name name, false⟩ = .ok ⟨standing way, name⟩ := by
    simp only [taken, fits.short name member]
    cases found : t.get? ⟨standing way, name⟩ with
    | none => rfl
    | some old =>
      obtain ⟨id, node⟩ := old
      cases node with
      | directory => exact absurd (opening.solid _ found) (by simp [Entry.isDirectory])
      | _ => rfl
  simp only [Tree.rename, fits.plain, slotArrived proper fits opening.pieces opening.led, bind,
    Except.bind, free, there]
  rfl

end Opening

end BuildProbe.Tree
