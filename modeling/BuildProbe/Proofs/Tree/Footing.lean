import BuildProbe.Proofs.Path.Rungs
import BuildProbe.Proofs.Tree.Threshold
import BuildProbe.Proofs.Tree.Upkeep
import Mathlib.Data.List.Induction

/-!
How far the names of a proper path lead, links and all. Either a walk along them arrives in a
directory, or it comes to a directory in which the next name is missing, or it comes to one in which
the next name stands for something that leads into no directory. A path may be written to as long as
the last does not happen to its leading parts: each of them leads to a directory, or there is nothing
at it nor at any longer one.
-/
namespace BuildProbe

namespace Path

theorem trimNamed {absolute : Bool} {name : String} (named : ¬ Blank name) (rest : List String) :
    trim absolute (name :: rest) = name :: rest := by
  have kept : ¬(name = "" ∨ name = ".") := named
  cases rest with
  | nil => rw [trim, if_neg fun blank => kept (blank.imp_right And.left)]
  | cons next rest => rw [trim, if_neg kept]

theorem properBlank {p : Path} (proper : p.Proper) {name : String} (member : name ∈ p.pieces) :
    ¬ Blank name := by
  obtain ⟨filled, dot, _⟩ := proper.names name member
  exact fun blank => blank.elim filled dot

theorem parentProper {p : Path} (proper : p.Proper) {before : List String} {name : String}
    (pieces : p.pieces = before ++ [name]) : p.parent? = some ⟨p.absolute, before⟩ := by
  have named := properBlank proper (pieces ▸ List.mem_append_right _ List.mem_cons_self)
  have whole : trim p.absolute p.pieces.reverse = name :: before.reverse := by
    rw [pieces, List.reverse_append, List.reverse_singleton, List.singleton_append, trimNamed named]
  have kept : trim p.absolute before.reverse = before.reverse := by
    cases above : before.reverse with
    | nil => rw [trim]
    | cons next rest =>
      have member : next ∈ before := List.mem_reverse.mp (above ▸ List.mem_cons_self)
      exact trimNamed (properBlank proper (pieces ▸ List.mem_append_left _ member)) rest
  simp only [parent?, whole, kept, List.reverse_reverse]

theorem directoryProper {p : Path} (proper : p.Proper) (relative : p.absolute = false)
    {before : List String} {name : String} (pieces : p.pieces = before ++ [name]) :
    p.directory = if before = [] then here else ⟨false, before⟩ := by
  simp only [directory, parentProper proper pieces, relative, isEmpty, Bool.not_false,
    Bool.true_and, List.isEmpty_iff]

end Path

namespace Tree

variable {t : Tree} {p : Path}

/- Every leading part of a path leads to a directory, or else there is nothing at it, nor at any
longer one. -/
def Admits (t : Tree) (p : Path) : Prop :=
  ∀ part : Path, part.Leads p → part.pieces ≠ [] → t.isDirectory part = true ∨
    ∀ further : Path, further.Leads p → part.LeadsTo further → ∀ e, t.lstat further ≠ .ok e

inductive Footing (t : Tree) (way : List Nat) (names : List String) : Prop where
  | arrives {last} (led : t.walk true linkLimit way names = .ok (.inside last))
  | misses {before name rest last} (split : names = before ++ name :: rest)
      (led : t.walk true linkLimit way before = .ok (.inside last))
      (free : t.get? ⟨standing last, name⟩ = none)
  | stops {before name rest last e} (split : names = before ++ name :: rest)
      (led : t.walk true linkLimit way before = .ok (.inside last))
      (there : t.get? ⟨standing last, name⟩ = some e)
      (shut : ∀ beyond, t.walk true linkLimit way (before ++ [name]) ≠ .ok (.inside beyond))

theorem footing (t : Tree) (way : List Nat) (names : List String) : t.Footing way names := by
  induction names using List.reverseRecOn with
  | nil => exact .arrives (by rw [walk])
  | append_singleton names name ih =>
    cases ih with
    | misses split led free => exact .misses (by rw [split, List.append_assoc]; rfl) led free
    | stops split led there shut =>
      exact .stops (by rw [split, List.append_assoc]; rfl) led there shut
    | @arrives last led =>
      by_cases arrived : ∃ beyond, t.walk true linkLimit way (names ++ [name]) = .ok (.inside beyond)
      · obtain ⟨beyond, led⟩ := arrived
        exact .arrives led
      · cases there : t.get? ⟨standing last, name⟩ with
        | none => exact .misses rfl led there
        | some e => exact .stops rfl led there fun beyond inside => arrived ⟨beyond, inside⟩

theorem walkKnown {follow : Bool} {links : Nat} {way last : List Nat} {pieces : List String}
    (known : ∀ id ∈ way, t.Known id) (led : t.walk follow links way pieces = .ok (.inside last)) :
    ∀ id ∈ last, t.Known id := by
  fun_induction walk t follow links way pieces with
  | case1 => cases led; exact known
  | case2 links way piece rest skip ih => exact ih known led
  | case3 links way rest name ih =>
    exact ih (fun id member => known id (List.mem_of_mem_tail member)) led
  | case6 links way piece rest name up long id here ih =>
    refine ih ?_ led
    intro other member
    cases member with
    | head => exact .inr ⟨_, here⟩
    | tail _ member => exact known other member
  | case11 way piece rest name up long id target here final links ih =>
    refine ih ?_ led
    split
    · exact List.forall_mem_nil _
    · exact known
  | _ => cases led

theorem walkShut {links : Nat} {way : List Nat} {before after : List String}
    (shut : ∀ beyond, t.walk true links way before ≠ .ok (.inside beyond)) (more : after ≠ [])
    (follow : Bool) : ∃ why, t.walk follow links way (before ++ after) = .error why := by
  cases walked : t.walk true links way before with
  | error why => exact ⟨why, walkError more walked⟩
  | ok goal =>
    cases goal with
    | inside beyond => exact absurd walked (shut beyond)
    | «at» loc e => exact ⟨_, walkHalted more (.inr ⟨loc, e, walked⟩)⟩

theorem leadsProper (proper : p.Proper) {part : Path} (leads : part.Leads p)
    (filled : part.pieces ≠ []) : part.Proper := by
  obtain ⟨n, _, rfl⟩ := leads
  exact ⟨filled, fun name member => proper.names name (List.mem_of_mem_take member)⟩

theorem leadsFits (fits : Fits p) {part : Path} (leads : part.Leads p)
    (filled : part.pieces ≠ []) : Fits part := by
  obtain ⟨n, _, rfl⟩ := leads
  have whole := List.take_append_drop n p.pieces
  have size : (⟨p.absolute, p.pieces.take n⟩ : Path).text.utf8ByteSize ≤ p.text.utf8ByteSize := by
    have size := (⟨p.absolute, p.pieces.take n⟩ : Path).textSize (p.pieces.drop n)
    simp only [whole] at size
    exact size
  have short : ¬ pathLimit ≤ p.text.utf8ByteSize := by
    intro long
    have fit := fits.fit
    rw [unfit?, if_pos long] at fit
    cases fit
  refine ⟨?_, unfitNone (by omega) ?_,
    fun name member => fits.short name (List.mem_of_mem_take member)⟩
  · have plain := fits.plain
    rw [Path.hasNul, ← whole, List.any_append, Bool.or_eq_false_iff] at plain
    exact plain.1
  · simpa [Path.isEmpty] using fun _ => filled

section

variable {before : List String} {name : String} {way : List Nat}

theorem slotFooting (proper : p.Proper) (fits : Fits p) (pieces : p.pieces = before ++ [name]) :
    t.slot p = match t.walk true linkLimit (t.base p) before with
      | .error why => .error why
      | .ok (.inside way) => .ok ⟨standing way, .name name, false⟩
      | .ok (.at ..) => .error .notADirectory :=
  slotNamed (proper.names name (pieces ▸ List.mem_append_right _ List.mem_cons_self)) fits.fit pieces

theorem slotArrived (proper : p.Proper) (fits : Fits p) (pieces : p.pieces = before ++ [name])
    (led : t.walk true linkLimit (t.base p) before = .ok (.inside way)) :
    t.slot p = .ok ⟨standing way, .name name, false⟩ := by
  rw [slotFooting proper fits pieces, led]

theorem mkdirArrived (proper : p.Proper) (fits : Fits p) (pieces : p.pieces = before ++ [name])
    (led : t.walk true linkLimit (t.base p) before = .ok (.inside way)) :
    t.mkdir p = if (t.get? ⟨standing way, name⟩).isSome then .error (.system .alreadyExists)
      else .ok (t.add ⟨standing way, name⟩ .directory) := by
  have short := fits.short name (pieces ▸ List.mem_append_right _ List.mem_cons_self)
  rw [mkdirNamed fits.plain (slotArrived proper fits pieces led), if_neg (by simp [short])]

theorem mkdirUnled (proper : p.Proper) (fits : Fits p) (pieces : p.pieces = before ++ [name])
    (unled : ∀ way, t.walk true linkLimit (t.base p) before ≠ .ok (.inside way)) :
    ∃ why, t.mkdir p = .error why := by
  have slot := slotFooting (t := t) proper fits pieces
  cases walked : t.walk true linkLimit (t.base p) before with
  | error why =>
    rw [walked] at slot
    exact ⟨_, mkdirRefused fits.plain slot⟩
  | ok goal =>
    cases goal with
    | inside way => exact absurd walked (unled way)
    | «at» loc e =>
      rw [walked] at slot
      exact ⟨_, mkdirRefused fits.plain slot⟩

theorem mkdirMissing (proper : p.Proper) (fits : Fits p) (pieces : p.pieces = before ++ [name])
    (missing : t.walk true linkLimit (t.base p) before = .error .notFound) :
    t.mkdir p = .error (.system .notFound) := by
  have slot := slotFooting (t := t) proper fits pieces
  rw [missing] at slot
  exact mkdirRefused fits.plain slot

theorem lstatArrived (proper : p.Proper) (fits : Fits p) (pieces : p.pieces = before ++ [name])
    (led : t.walk true linkLimit (t.base p) before = .ok (.inside way)) :
    t.lstat p = match t.get? ⟨standing way, name⟩ with
      | none => .error (.system .notFound)
      | some e => .ok e := by
  have member : name ∈ p.pieces := pieces ▸ List.mem_append_right _ List.mem_cons_self
  obtain ⟨left, resumed⟩ := walkResume led (List.cons_ne_nil name []) false
  rw [lstat, withPath, if_neg (by simp [fits.plain]), entry, resolveFit fits.fit, pieces, resumed,
    lookWalk (proper.names name member), look, if_neg (by simp [fits.short name member])]
  cases t.get? ⟨standing way, name⟩ <;> rfl

theorem isDirectoryWalk (fits : Fits p) : t.isDirectory p = true ↔
    ∃ way, t.walk true linkLimit (t.base p) p.pieces = .ok (.inside way) := by
  rw [isDirectory, stat, withPath, if_neg (by simp [fits.plain]), entry, resolve, fits.fit]
  simp only
  cases walked : t.walk true linkLimit (t.base p) p.pieces with
  | error why =>
    constructor
    · intro directory
      cases directory
    · rintro ⟨_, same⟩
      cases same
  | ok goal =>
    cases goal with
    | inside way => exact iff_of_true rfl ⟨way, rfl⟩
    | «at» loc e =>
      have solid : e.isDirectory = false := walkUnentered walked
      constructor
      · intro directory
        exact absurd directory (by simpa [Except.map, Except.mapError, Goal.entry] using solid)
      · rintro ⟨_, same⟩
        cases same

theorem walkFree {follow : Bool} {links : Nat} (proper : name ≠ "" ∧ name ≠ "." ∧ name ≠ "..")
    (short : nameTooLong name = false) (free : t.get? ⟨standing way, name⟩ = none)
    (rest : List String) : t.walk follow links way (name :: rest) = .error .notFound := by
  obtain ⟨filled, dot, up⟩ := proper
  rw [walk, if_neg (by simp [filled, dot]), if_neg up, if_neg (by simp [short]), free]

theorem resolveFree (proper : p.Proper) (fits : Fits p) {rest : List String}
    (pieces : p.pieces = before ++ name :: rest)
    (led : t.walk true linkLimit (t.base p) before = .ok (.inside way))
    (free : t.get? ⟨standing way, name⟩ = none) (follow : Bool) :
    t.resolve follow p = .error .notFound := by
  have member : name ∈ p.pieces := pieces ▸ List.mem_append_right _ List.mem_cons_self
  rw [resolveFit fits.fit, pieces]
  exact walkThrough (List.cons_ne_nil _ _) led fun _ =>
    walkFree (proper.names name member) (fits.short name member) free rest

theorem lstatFree (proper : p.Proper) (fits : Fits p) {rest : List String}
    (pieces : p.pieces = before ++ name :: rest)
    (led : t.walk true linkLimit (t.base p) before = .ok (.inside way))
    (free : t.get? ⟨standing way, name⟩ = none) : t.lstat p = .error (.system .notFound) := by
  rw [lstat, withPath, if_neg (by simp [fits.plain]), entry,
    resolveFree proper fits pieces led free]
  rfl

theorem leadsEither {part : Path} (leads : part.Leads p) {rest : List String}
    (pieces : p.pieces = before ++ name :: rest) :
    part.pieces <+: before ∨ ∃ lower, part.pieces = before ++ name :: lower := by
  obtain ⟨n, _, rfl⟩ := leads
  have whole : before ++ [name] <+: p.pieces := ⟨rest, by rw [pieces, List.append_assoc]; rfl⟩
  cases List.prefix_or_prefix_of_prefix (List.take_prefix n p.pieces) whole with
  | inl shorter =>
    cases List.prefix_concat_iff.mp shorter with
    | inl same => exact .inr ⟨[], same⟩
    | inr short => exact .inl short
  | inr longer =>
    obtain ⟨lower, same⟩ := longer
    exact .inr ⟨lower, by rw [← same, List.append_assoc]; rfl⟩

theorem leadsThrough {lower : List String} (pieces : p.pieces = before ++ lower)
    (more : lower ≠ []) : (⟨p.absolute, before⟩ : Path).Leads p := by
  refine ⟨before.length, ?_, ?_⟩
  · have := List.length_pos_iff.mpr more
    simp only [pieces, List.length_append]
    omega
  · rw [pieces, List.take_left]

theorem partArrived (fits : Fits p) {part : Path} (leads : part.Leads p)
    (filled : part.pieces ≠ []) (early : part.pieces <+: before)
    (led : t.walk true linkLimit (t.base p) before = .ok (.inside way)) :
    t.isDirectory part = true := by
  refine (isDirectoryWalk (leadsFits fits leads filled)).mpr ?_
  obtain ⟨n, _, rfl⟩ := leads
  obtain ⟨lower, whole⟩ := early
  exact walkFirst (whole ▸ led)

theorem arrivesAdmits (fits : Fits p) (pieces : p.pieces = before ++ [name])
    (led : t.walk true linkLimit (t.base p) before = .ok (.inside way)) : t.Admits p := by
  intro part leads filled
  left
  refine partArrived fits leads filled ?_ led
  cases leadsEither leads pieces with
  | inl early => exact early
  | inr through =>
    obtain ⟨lower, through⟩ := through
    obtain ⟨n, short, rfl⟩ := leads
    have size := congrArg List.length through
    simp only [pieces, List.length_take, List.length_append, List.length_cons,
      List.length_nil] at size short
    omega

theorem missesAdmits (proper : p.Proper) (fits : Fits p) {rest : List String}
    (pieces : p.pieces = before ++ name :: rest)
    (led : t.walk true linkLimit (t.base p) before = .ok (.inside way))
    (free : t.get? ⟨standing way, name⟩ = none) : t.Admits p := by
  intro part leads filled
  cases leadsEither leads pieces with
  | inl early => exact .inl (partArrived fits leads filled early led)
  | inr through =>
    right
    intro further leads' longer e there
    have deeper : ∃ lower, further.pieces = before ++ name :: lower := by
      obtain ⟨lower, through⟩ := through
      cases longer with
      | inl same => exact ⟨lower, same ▸ through⟩
      | inr onward =>
        obtain ⟨n, _, rfl⟩ := onward
        refine ⟨lower ++ further.pieces.drop n, ?_⟩
        have whole := List.take_append_drop n further.pieces
        rw [show further.pieces.take n = _ from through] at whole
        exact whole.symm.trans (List.append_assoc ..)
    obtain ⟨lower, deeper⟩ := deeper
    have filled' : further.pieces ≠ [] := by
      rw [deeper]
      exact List.append_ne_nil_of_right_ne_nil _ (List.cons_ne_nil _ _)
    have base : t.base further = t.base p := by
      obtain ⟨n, _, rfl⟩ := leads'
      rfl
    rw [lstatFree (leadsProper proper leads' filled') (leadsFits fits leads' filled') deeper
      (base ▸ led) free] at there
    cases there

theorem stopsBars (proper : p.Proper) (fits : Fits p) {rest : List String} {e : Entry}
    (pieces : p.pieces = before ++ name :: rest) (more : rest ≠ [])
    (led : t.walk true linkLimit (t.base p) before = .ok (.inside way))
    (there : t.get? ⟨standing way, name⟩ = some e)
    (shut : ∀ beyond, t.walk true linkLimit (t.base p) (before ++ [name]) ≠ .ok (.inside beyond)) :
    ¬ t.Admits p := by
  intro admits
  have leads : (⟨p.absolute, before ++ [name]⟩ : Path).Leads p :=
    leadsThrough (by rw [pieces, List.append_assoc]; rfl) more
  have filled : before ++ [name] ≠ [] := List.append_ne_nil_of_right_ne_nil _ (List.cons_ne_nil _ _)
  have short := leadsFits fits leads filled
  cases admits _ leads filled with
  | inl directory =>
    obtain ⟨beyond, led⟩ := (isDirectoryWalk short).mp directory
    exact shut beyond led
  | inr nothing =>
    have found := lstatArrived (leadsProper proper leads filled) short rfl led
    rw [there] at found
    exact nothing _ leads (.inl rfl) e found

end

end Tree
end BuildProbe
