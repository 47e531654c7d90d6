import BuildProbe.Proofs.Path.Rungs
import BuildProbe.Proofs.Tree.Approach

/-!
Making and entering the directory of a path whose approach is known. It is made if its name is the
only one ahead, it is there if nothing is ahead, and otherwise the call is refused for the reason
that the approach gives, or because no call takes such a path.
-/
namespace BuildProbe.Tree

open Text (Bytes)
open BuildProbe.Path (Blank Trimmed)

def toward (t : Tree) (p : Path) : Approach := t.approach (t.base p) p.pieces

def Outlook.errno? : Outlook → Option Errno
  | .overlong => some .nameTooLong
  | .shut [] => some .alreadyExists
  | .shut (_ :: _) => some .notADirectory
  | _ => none

/- Why no call takes a path, whatever is in the tree. -/
def barred? (p : Path) : Option Refusal :=
  if p.hasNul then some .nulInName
  else if pathLimit ≤ p.text.utf8ByteSize then some (.system .nameTooLong)
  else none

theorem barredNone {p : Path} (free : barred? p = none) :
    p.hasNul = false ∧ ¬ pathLimit ≤ p.text.utf8ByteSize := by
  unfold barred? at free
  split at free <;> try contradiction
  rename_i plain
  split at free <;> try contradiction
  rename_i short
  exact ⟨by simpa using plain, short⟩

theorem barredAbove {p : Path} {lower : List String}
    (free : barred? ⟨p.absolute, p.pieces ++ lower⟩ = none) : barred? p = none := by
  obtain ⟨plain, short⟩ := barredNone free
  have above : p.hasNul = false := by
    simp only [Path.hasNul, List.any_append, Bool.or_eq_false_iff] at plain
    exact plain.1
  have smaller := p.textSize lower
  rw [barred?, if_neg (by simp [above]), if_neg (by omega)]

theorem unfitNone {p : Path} (short : ¬ pathLimit ≤ p.text.utf8ByteSize)
    (filled : p.isEmpty = false) : unfit? p = none := by
  rw [unfit?, if_neg short, if_neg (by simp [filled])]

theorem splitLastConcat (before : List String) {last : String} (filled : last ≠ "") :
    splitLast (before ++ [last]) =
      (before, if last = "." ∨ last = ".." then .dots else .name last) := by
  rw [splitLast, List.reverse_append, List.reverse_singleton, List.singleton_append,
    List.dropWhile_cons_of_neg (by simpa using filled)]
  simp only [List.reverse_reverse]

theorem approachBlank {blanks : List String} (blank : ∀ b ∈ blanks, Blank b) (t : Tree)
    (way : List Nat) : t.approach way blanks = ⟨way, [], .clear⟩ := by
  induction blanks with
  | nil => rfl
  | cons b blanks ih =>
    have skip : b = "" ∨ b = "." := blank b List.mem_cons_self
    rw [approach, if_pos skip]
    exact ih fun b member => blank b (List.mem_cons_of_mem _ member)

theorem ventureBlank {blanks : List String} (blank : ∀ b ∈ blanks, Blank b) :
    venture blanks = ([], .clear) := by
  induction blanks with
  | nil => rfl
  | cons b blanks ih =>
    have skip : b = "" ∨ b = "." := blank b List.mem_cons_self
    rw [venture, if_pos skip]
    exact ih fun b member => blank b (List.mem_cons_of_mem _ member)

theorem venturePiece {piece : String} (filled : ¬ Blank piece) :
    venture [piece] =
      if piece = ".." then ([], .astray)
      else if nameTooLong piece then ([], .overlong)
      else ([piece], .clear) := by
  have name : ¬(piece = "" ∨ piece = ".") := filled
  rw [venture, if_neg name]
  rfl

theorem slotOf {t : Tree} {p : Path} {before : List String} {last : Last}
    (fit : unfit? p = none) (ends : splitLast p.pieces = (before, last)) :
    t.slot p = match t.walk true linkLimit (t.base p) before with
      | .error e => .error e
      | .ok (.inside way) => .ok ⟨standing way, last, p.pieces.getLast? = some ""⟩
      | .ok (.at ..) => .error .notADirectory := by
  have cases : ∀ result, t.walk true linkLimit (t.base p) before = result →
      t.slot p = match result with
        | .error e => .error e
        | .ok (.inside way) => .ok ⟨standing way, last, p.pieces.getLast? = some ""⟩
        | .ok (.at ..) => .error .notADirectory := by
    intro result walked
    cases result with
    | error why => simp only [slot, fit, ends, walked]
    | ok goal => cases goal <;> simp only [slot, fit, ends, walked]
  exact cases _ rfl

theorem mkdirRefused {t : Tree} {p : Path} {why : Errno} (plain : p.hasNul = false)
    (refused : t.slot p = .error why) : t.mkdir p = .error (.system why) := by
  rw [mkdir, withPath, if_neg (by simp [plain]), refused]
  rfl

theorem mkdirNameless {t : Tree} {p : Path} {s : Slot} (plain : p.hasNul = false)
    (here : t.slot p = .ok s) (nameless : ∀ name, s.last ≠ .name name) :
    t.mkdir p = .error (.system .alreadyExists) := by
  rw [mkdir, withPath, if_neg (by simp [plain]), here]
  cases last : s.last with
  | name name => exact absurd last (nameless name)
  | _ => simp only [bind, Except.bind, last]; rfl

theorem mkdirNamed {t : Tree} {p : Path} {directory : Nat} {name : String} {slashed : Bool}
    (plain : p.hasNul = false) (here : t.slot p = .ok ⟨directory, .name name, slashed⟩) :
    t.mkdir p =
      if nameTooLong name then .error (.system .nameTooLong)
      else if (t.get? ⟨directory, name⟩).isSome then .error (.system .alreadyExists)
      else .ok (t.add ⟨directory, name⟩ .directory) := by
  rw [mkdir, withPath, if_neg (by simp [plain]), here]
  simp only [bind, Except.bind]
  split
  · rfl
  · split <;> rfl

def Approach.Makes (t : Tree) (result : Except Refusal Tree) : Approach → Prop
  | ⟨_, [], .clear⟩ => result = .error (.system .alreadyExists)
  | ⟨way, [m], .clear⟩ => result = .ok (t.add ⟨standing way, m⟩ .directory)
  | ⟨_, _ :: _, _⟩ => result = .error (.system .notFound)
  | ⟨_, [], outlook⟩ => ∀ why, outlook.errno? = some why → result = .error (.system why)

theorem makesMissing {t : Tree} {result : Except Refusal Tree} {way : List Nat} {m : String}
    {l : List String} {outlook : Outlook} (missing : result = .error (.system .notFound))
    (more : ¬(l = [] ∧ outlook = .clear)) :
    (⟨way, m :: l, outlook⟩ : Approach).Makes t result := by
  cases outlook with
  | clear =>
    cases l with
    | nil => exact absurd ⟨rfl, rfl⟩ more
    | cons next l => exact missing
  | _ => cases l <;> exact missing

section

variable {t : Tree} {p : Path} {last : String} {way : List Nat}

theorem makesBeyond {result : Except Refusal Tree} {m : String} {l : List String}
    {outlook : Outlook} (named : ¬ Blank last) (missing : result = .error (.system .notFound)) :
    ((⟨way, m :: l, outlook⟩ : Approach).onward t [last]).Makes t result := by
  cases outlook with
  | clear =>
    have further : ¬(l ++ (venture [last]).1 = [] ∧ (venture [last]).2 = .clear) := by
      rw [venturePiece named]
      split
      · rintro ⟨_, ⟨⟩⟩
      · split
        · rintro ⟨_, ⟨⟩⟩
        · simp
    exact makesMissing missing further
  | _ => exact makesMissing missing (by rintro ⟨_, ⟨⟩⟩)

theorem makesArrived {slashed : Bool} (named : ¬ Blank last) (plain : p.hasNul = false)
    (here : t.slot p =
      .ok ⟨standing way, if last = "." ∨ last = ".." then .dots else .name last, slashed⟩) :
    ((⟨way, [], .clear⟩ : Approach).onward t [last]).Makes t (t.mkdir p) := by
  have skip : ¬(last = "" ∨ last = ".") := named
  rw [Approach.onward, if_pos rfl, approach, if_neg skip]
  by_cases up : last = ".."
  · rw [if_pos up]
    refine mkdirNameless plain here ?_
    intro name
    rw [if_pos (.inr up)]
    rintro ⟨⟩
  · have name : ¬(last = "." ∨ last = "..") := fun dots =>
      dots.elim (fun dot => named (.inr dot)) up
    rw [if_neg name] at here
    have made := mkdirNamed plain here
    rw [if_neg up]
    by_cases long : nameTooLong last
    · rw [if_pos long] at made ⊢
      intro why same
      cases same
      exact made
    · rw [if_neg long] at made ⊢
      cases found : t.get? ⟨standing way, last⟩ with
      | none =>
        rw [found] at made
        exact made
      | some e =>
        rw [found] at made
        obtain ⟨id, node⟩ := e
        cases node with
        | directory => exact made
        | file content mode =>
          intro why same
          cases same
          exact made
        | link target => rintro _ ⟨⟩

theorem makesShut {beyond : List String} (plain : p.hasNul = false)
    (halted : t.slot p = .error .notADirectory) :
    ((⟨way, [], .shut beyond⟩ : Approach).onward t [last]).Makes t (t.mkdir p) := by
  intro why same
  have refused := mkdirRefused plain halted
  cases beyond <;> cases same <;> exact refused

end

theorem mkdirToward {t : Tree} {p : Path} (trimmed : p.Trimmed) (filled : p.isEmpty = false)
    (free : barred? p = none) : (t.toward p).Makes t (t.mkdir p) := by
  obtain ⟨plain, short⟩ := barredNone free
  have fit := unfitNone short filled
  rcases Path.trimmedCases trimmed with none | rfl | ⟨before, last, pieces, named⟩
  · have ends : splitLast p.pieces = ([], .root) := by rw [none]; rfl
    have here := slotOf (t := t) fit ends
    rw [walk] at here
    rw [toward, none]
    exact mkdirNameless plain here (by rintro _ ⟨⟩)
  · exact mkdirHere t
  · have above := t.approachLeads true linkLimit (t.base p) before
    have ends := pieces ▸ splitLastConcat before fun empty => named (.inl empty)
    have here := slotOf (t := t) fit ends
    rw [toward, pieces, approachAppend]
    generalize t.approach (t.base p) before = a at above ⊢
    obtain ⟨way, ahead, outlook⟩ := a
    cases ahead with
    | cons m l =>
      have walked : t.walk true linkLimit (t.base p) before = .error .notFound := above
      rw [walked] at here
      exact makesBeyond named (mkdirRefused plain here)
    | nil =>
      cases outlook with
      | clear =>
        have walked : t.walk true linkLimit (t.base p) before = .ok (.inside way) := above
        rw [walked] at here
        exact makesArrived named plain here
      | overlong =>
        have walked : t.walk true linkLimit (t.base p) before = .error .nameTooLong := above
        rw [walked] at here
        intro why same
        cases same
        exact mkdirRefused plain here
      | shut beyond =>
        refine makesShut plain ?_
        cases beyond with
        | nil =>
          obtain ⟨loc, id, content, mode, walked⟩ := above
          rw [walked] at here
          exact here
        | cons next beyond =>
          have walked : t.walk true linkLimit (t.base p) before = .error .notADirectory := above
          rw [walked] at here
          exact here
      | astray => rintro _ ⟨⟩

theorem resolveFit {t : Tree} {p : Path} (fit : unfit? p = none) (follow : Bool) :
    t.resolve follow p = t.walk follow linkLimit (t.base p) p.pieces := by
  rw [resolve, fit]

theorem enterToward {t : Tree} {p : Path} {way : List Nat} (fit : unfit? p = none)
    (arrived : t.toward p = ⟨way, [], .clear⟩) : t.enter p = .ok (standing way) := by
  have led := t.approachLeads true linkLimit (t.base p) p.pieces
  have clear : t.approach (t.base p) p.pieces = ⟨way, [], .clear⟩ := arrived
  rw [clear] at led
  have walked : t.walk true linkLimit (t.base p) p.pieces = .ok (.inside way) := led
  rw [enter, resolveFit fit, walked]
  rfl

theorem isDirectoryToward {t : Tree} {p : Path} (free : barred? p = none)
    (filled : p.isEmpty = false) (straight : (t.toward p).outlook ≠ .astray) :
    t.isDirectory p = true ↔ ∃ way, t.toward p = ⟨way, [], .clear⟩ := by
  obtain ⟨plain, short⟩ := barredNone free
  have fit := unfitNone short filled
  have led := t.approachLeads true linkLimit (t.base p) p.pieces
  rw [toward] at straight ⊢
  rw [isDirectory, stat, withPath, if_neg (by simp [plain]), entry, resolveFit fit]
  generalize t.walk true linkLimit (t.base p) p.pieces = walked at led ⊢
  generalize t.approach (t.base p) p.pieces = a at led straight ⊢
  obtain ⟨way, ahead, outlook⟩ := a
  cases ahead with
  | cons m l =>
    have missing : walked = .error .notFound := led
    subst missing
    exact ⟨fun h => False.elim (by cases h), by rintro ⟨_, same⟩; cases same⟩
  | nil =>
    cases outlook with
    | clear =>
      have inside : walked = .ok (.inside way) := led
      subst inside
      exact ⟨fun _ => ⟨way, rfl⟩, fun _ => rfl⟩
    | overlong =>
      have long : walked = .error .nameTooLong := led
      subst long
      exact ⟨fun h => False.elim (by cases h), by rintro ⟨_, same⟩; cases same⟩
    | shut beyond =>
      refine ⟨fun h => False.elim ?_, by rintro ⟨_, same⟩; cases same⟩
      cases beyond with
      | nil =>
        obtain ⟨loc, id, content, mode, rfl⟩ := led
        cases h
      | cons next beyond =>
        have halted : walked = .error .notADirectory := led
        subst halted
        cases h
    | astray => exact absurd rfl straight

theorem isDirectoryBarred {t : Tree} {p : Path} {why : Refusal} (barred : barred? p = some why) :
    t.isDirectory p = false := by
  unfold barred? at barred
  rw [isDirectory, stat, withPath]
  split at barred
  · rename_i nul
    rw [if_pos nul]
  · rename_i plain
    rw [if_neg plain]
    split at barred <;> try contradiction
    rename_i long
    rw [entry, resolve, unfit?, if_pos long]
    rfl

theorem mkdirBarred {t : Tree} {p : Path} {why : Refusal} (barred : barred? p = some why) :
    t.mkdir p = .error why := by
  unfold barred? at barred
  rw [mkdir, withPath]
  split at barred
  · rename_i nul
    rw [if_pos nul]
    cases barred
    rfl
  · rename_i plain
    rw [if_neg plain]
    split at barred <;> try contradiction
    rename_i long
    cases barred
    rw [slot, unfit?, if_pos long]
    rfl

end BuildProbe.Tree
