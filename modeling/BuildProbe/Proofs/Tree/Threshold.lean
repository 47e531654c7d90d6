import BuildProbe.Proofs.Tree.Crossing
import BuildProbe.Proofs.Tree.Deadend

/-!
The threshold of a path: the directory in which its last name is looked up. It is the one that the
path's directory denotes. That directory is told from the pieces of the path, the threshold by a
walk through the tree, but between the two are only blank pieces, and these lead nowhere else. Only
a path that is too long as a whole leads nowhere although its directory may be there.
-/
namespace BuildProbe.Tree

open BuildProbe.Path (Blank)

def Goal.entered : Goal → Except Errno Nat
  | .inside way => .ok (standing way)
  | .at .. => .error .notADirectory

def look (t : Tree) (directory : Nat) (name : String) : Except Errno Entry :=
  if nameTooLong name then .error .nameTooLong
  else match t.get? ⟨directory, name⟩ with
    | some e => .ok e
    | none => .error .notFound

section

variable {t : Tree} {p : Path} {before : List String} {name : String}

theorem enterWalk (fit : unfit? p = none) :
    t.enter p = (t.walk true linkLimit (t.base p) p.pieces).bind Goal.entered := by
  rw [enter, resolveFit fit]
  cases t.walk true linkLimit (t.base p) p.pieces with
  | error why => rfl
  | ok goal => cases goal <;> rfl

theorem enteredBlank {links : Nat} {way : List Nat} {pieces blanks : List String}
    (blank : ∀ b ∈ blanks, Blank b) :
    (t.walk true links way (pieces ++ blanks)).bind Goal.entered =
      (t.walk true links way pieces).bind Goal.entered := by
  by_cases none : blanks = []
  · rw [none, List.append_nil]
  · cases walked : t.walk true links way pieces with
    | error why => rw [walkError none walked]
    | ok goal =>
      cases goal with
      | inside last => rw [walkThrough none walked fun links => walkBlank blank]
      | «at» loc e =>
        rw [walkHalted none (.inr ⟨loc, e, walked⟩)]
        rfl

theorem directoryFit (named : ¬ Blank name) (fit : unfit? p = none)
    (pieces : p.pieces = before ++ [name]) : unfit? p.directory = none := by
  obtain ⟨blanks, _, ⟨absolute, whole⟩ | ⟨here, _⟩⟩ := Path.directoryPieces (k := 0) named pieces
  · have size := p.directory.textSize (blanks ++ [name])
    rw [absolute, ← List.append_assoc, ← whole, ← pieces] at size
    refine unfitNone (fun long => ?_) p.directoryFilled
    rw [unfit?, if_pos (Nat.le_trans long size)] at fit
    cases fit
  · rw [here]
    decide +kernel

theorem enterBefore (named : ¬ Blank name) (fit : unfit? p = none)
    (pieces : p.pieces = before ++ [name]) :
    t.enter p.directory = (t.walk true linkLimit (t.base p) before).bind Goal.entered := by
  rw [enterWalk (directoryFit named fit pieces)]
  obtain ⟨blanks, blank, ⟨absolute, whole⟩ | ⟨here, relative, whole⟩⟩ :=
    Path.directoryPieces (k := 0) named pieces
  · rw [whole, enteredBlank blank, base, base, absolute]
  · have stays : t.walk true linkLimit (t.base p.directory) p.directory.pieces =
        .ok (.inside (t.base p)) := by
      rw [here, base, base, relative]
      exact walkBlank (by simp [Path.here, Blank])
    rw [whole, stays, walkBlank blank]

theorem slotNamed (ordinary : name ≠ "" ∧ name ≠ "." ∧ name ≠ "..") (fit : unfit? p = none)
    (pieces : p.pieces = before ++ [name]) :
    t.slot p = match t.walk true linkLimit (t.base p) before with
      | .error why => .error why
      | .ok (.inside way) => .ok ⟨standing way, .name name, false⟩
      | .ok (.at ..) => .error .notADirectory := by
  obtain ⟨filled, dot, up⟩ := ordinary
  have ends := splitLastConcat before filled
  rw [if_neg (not_or.mpr ⟨dot, up⟩), ← pieces] at ends
  have bare : ¬ p.pieces.getLast? = some "" := by
    rw [pieces, List.getLast?_concat]
    exact fun empty => filled (Option.some.inj empty)
  have here := slotOf (t := t) fit ends
  rw [decide_eq_false bare] at here
  cases walked : t.walk true linkLimit (t.base p) before with
  | error why =>
    rw [walked] at here
    exact here
  | ok goal =>
    rw [walked] at here
    cases goal with
    | inside way => exact here
    | «at» loc e => exact here

theorem lookWalk (ordinary : name ≠ "" ∧ name ≠ "." ∧ name ≠ "..") (links : Nat)
    (way : List Nat) :
    (t.walk false links way [name]).map Goal.entry = t.look (standing way) name := by
  obtain ⟨filled, dot, up⟩ := ordinary
  rw [walk, if_neg (not_or.mpr ⟨filled, dot⟩), if_neg up, look]
  by_cases long : nameTooLong name
  · rw [if_pos long, if_pos long]
    rfl
  · rw [if_neg long, if_neg long]
    cases found : t.get? ⟨standing way, name⟩ with
    | none => rfl
    | some e =>
      obtain ⟨id, node⟩ := e
      cases node with
      | directory =>
        simp only [walk]
        rfl
      | _ => rfl

theorem slotDirectory (ordinary : name ≠ "" ∧ name ≠ "." ∧ name ≠ "..")
    (fit : unfit? p = none) (pieces : p.pieces = before ++ [name]) :
    t.slot p = (t.enter p.directory).map (⟨·, .name name, false⟩) := by
  have named : ¬ Blank name := fun blank => blank.elim ordinary.1 ordinary.2.1
  rw [slotNamed ordinary fit pieces, enterBefore named fit pieces]
  cases t.walk true linkLimit (t.base p) before with
  | error why => rfl
  | ok goal => cases goal <;> rfl

theorem entryDirectory (ordinary : name ≠ "" ∧ name ≠ "." ∧ name ≠ "..")
    (fit : unfit? p = none) (pieces : p.pieces = before ++ [name]) :
    t.entry false p = (t.enter p.directory).bind (t.look · name) := by
  have named : ¬ Blank name := fun blank => blank.elim ordinary.1 ordinary.2.1
  have more : [name] ≠ [] := List.cons_ne_nil _ _
  rw [enterBefore named fit pieces, entry, resolveFit fit, pieces]
  cases walked : t.walk true linkLimit (t.base p) before with
  | error why =>
    rw [walkError more walked]
    rfl
  | ok goal =>
    cases goal with
    | inside way =>
      obtain ⟨left, resumed⟩ := walkResume walked more false
      rw [resumed]
      exact lookWalk ordinary left way
    | «at» loc e =>
      rw [walkHalted more (.inr ⟨loc, e, walked⟩)]
      rfl

theorem nulDirectory (named : ¬ Blank name) (pieces : p.pieces = before ++ [name]) :
    p.hasNul = (p.directory.hasNul || Path.hasNul ⟨false, [name]⟩) := by
  have plain : ∀ {blanks : List String}, (∀ b ∈ blanks, Blank b) →
      blanks.any (fun s => s.toList.contains '\x00') = false := by
    intro blanks blank
    refine List.any_eq_false.mpr fun b member => ?_
    rcases blank b member with rfl | rfl <;> decide
  obtain ⟨blanks, blank, ⟨_, whole⟩ | ⟨here, _, whole⟩⟩ :=
    Path.directoryPieces (k := 0) named pieces
  · rw [Path.hasNul, pieces, whole, List.any_append, List.any_append, plain blank, Bool.or_false]
    rfl
  · rw [Path.hasNul, pieces, whole, here, List.any_append, plain blank]
    rfl

def opens (t : Tree) (p : Path) : Except Refusal Nat := withPath p (t.enter p)

theorem opensHere (t : Tree) : t.opens .here = .ok (standing t.present) := by
  have stays : t.walk true linkLimit (t.base .here) Path.here.pieces =
      .ok (.inside t.present) := walkBlank (by simp [Path.here, Blank])
  refine withPathOk.mpr ⟨by decide, ?_⟩
  rw [enterWalk (by decide +kernel), stays]
  rfl

def within (t : Tree) (directory : Nat) (name : String) : Except Refusal Entry :=
  withPath ⟨false, [name]⟩ (t.look directory name)

theorem lstatLong (plain : p.hasNul = false)
    (long : pathLimit ≤ p.text.utf8ByteSize) : t.lstat p = .error (.system .nameTooLong) := by
  rw [lstat, withPath, if_neg (by simp [plain]), entry, resolve, unfit?, if_pos long]
  rfl

/- Either a path and its directory both lead nowhere, or the place of the path's last name is in
that directory, and whoever looks the name up there finds what the path leads to. -/
inductive Adjoins (t : Tree) (p : Path) (name : String) : Prop where
  | neither {why why'} (unopened : t.opens p.directory = .error why)
      (unfound : t.lstat p = .error why')
  | together {directory} (opened : t.opens p.directory = .ok directory)
      (place : t.slot p = .ok ⟨directory, .name name, false⟩)
      (found : t.lstat p = t.within directory name)

theorem adjoinsNamed (ordinary : name ≠ "" ∧ name ≠ "." ∧ name ≠ "..") (fit : unfit? p = none)
    (pieces : p.pieces = before ++ [name]) (t : Tree) : t.Adjoins p name := by
  have named : ¬ Blank name := fun blank => blank.elim ordinary.1 ordinary.2.1
  have nul := nulDirectory named pieces
  have found := entryDirectory (t := t) ordinary fit pieces
  cases opened : t.opens p.directory with
  | ok directory =>
    obtain ⟨plain, entered⟩ := withPathOk.mp opened
    refine .together opened ?_ ?_
    · rw [slotDirectory ordinary fit pieces, entered]
      rfl
    · rw [plain, Bool.false_or] at nul
      rw [lstat, within, withPath, withPath, nul, found, entered]
      rfl
  | error why =>
    cases led : t.lstat p with
    | error why' => exact .neither opened led
    | ok e =>
      obtain ⟨plain, there⟩ := withPathOk.mp led
      rw [plain] at nul
      rw [found] at there
      cases entered : t.enter p.directory with
      | error why' =>
        rw [entered] at there
        cases there
      | ok directory =>
        have above := (Bool.or_eq_false_iff.mp nul.symm).1
        rw [opens, withPathOk.mpr ⟨above, entered⟩] at opened
        cases opened

end

end BuildProbe.Tree
