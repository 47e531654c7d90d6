import BuildProbe.Artifact.Writing
import BuildProbe.Proofs.Tree.Landing

/-!
The fate of a draft: what its writing comes to, told from the tree in which it starts. It depends on
the approach to the destination's directory and on what is at the spot, and on nothing else. While
the writing is underway its steps do one deed each: the first directory ahead is made, a file under
the draft's own name changes, or the artifact is put in its place.
-/
namespace BuildProbe

open Text (Bytes)

namespace Tree

def hindrance? (t : Tree) (dir : Path) : Option Refusal :=
  (barred? dir).or ((t.toward dir).outlook.errno?.map .system)

def held? (t : Tree) (p : Path) : Option Bytes :=
  match t.landing? p, t.spot p with
  | none, some ⟨_, .file content _⟩ => some content.bytes
  | _, _ => none

def fate (t : Tree) (d : Draft) : Except WriteFailure Outcome :=
  if t.held? d.path = some d.content then .ok .unchanged
  else match t.hindrance? d.path.directory, d.overlong with
    | some why, _ => .error ⟨d.path.text, why.message⟩
    | none, true => .error (d.uncreated (.system .nameTooLong))
    | none, false => match t.landing? d.path with
      | some why => .error ⟨d.path.text, why.message⟩
      | none => .ok .written

/- A path that ends in a name and meets no link, neither on the way to its spot nor there, and no
two dots after something that is missing. -/
structure Straight (t : Tree) (p : Path) : Prop where
  named : Named p
  onward : (t.toward p.directory).outlook ≠ .astray
  solid : ∀ id target, t.spot p ≠ some ⟨id, .link target⟩

def Settled (t : Tree) : Prop := ∀ id ∈ t.present, t.Known id

theorem readHeld {t : Tree} {p : Path} (straight : t.Straight p) (bytes : Bytes) :
    t.read p = .ok bytes ↔ t.held? p = some bytes := by
  rw [readSpot straight.named straight.onward straight.solid]
  unfold held?
  constructor
  · rintro ⟨lands, id, content, mode, there, same⟩
    rw [lands, there]
    exact congrArg some same
  · intro held
    split at held <;> try contradiction
    rename_i lands there
    exact ⟨lands, _, _, _, there, Option.some.inj held⟩

theorem towardKnown {t : Tree} (settled : t.Settled) (p : Path) :
    ∀ id ∈ (t.toward p).way, t.Known id := by
  refine approachKnown fun id member => ?_
  unfold base at member
  split at member
  · cases member
  · exact settled id member

theorem ladderToward {t : Tree} {above last : Path} {rungs : List Path}
    (ladder : above.Ladder rungs last) :
    ∃ lower, t.toward last = (t.toward above).onward t lower := by
  obtain ⟨absolute, lower, pieces⟩ := Path.ladderPieces ladder
  exact ⟨lower, by rw [toward, pieces, approachAppend, t.baseAbsolute absolute]; rfl⟩

theorem ladderFree {above last : Path} {rungs : List Path} (ladder : above.Ladder rungs last)
    (free : barred? last = none) : barred? above = none := by
  obtain ⟨absolute, lower, pieces⟩ := Path.ladderPieces ladder
  obtain ⟨_, _⟩ := last
  cases absolute
  cases pieces
  exact barredAbove free

theorem towardEntered {t : Tree} {loc : Location} {p : Path} (free : t.get? loc = none)
    (known : t.Known loc.directory) (onward : (t.toward p).outlook ≠ .astray) :
    (t.add loc .directory).toward p = (t.toward p).entered loc t.freshId :=
  approachEntered free (knownOld known) onward

end Tree

namespace Tree

structure Spares (hidden : String) (t t' : Tree) : Prop where
  present : t'.present = t.present
  directories : ∀ {loc id}, t.get? loc = some ⟨id, .directory⟩ → t'.get? loc = some ⟨id, .directory⟩
  others : ∀ {loc}, loc.name ≠ hidden → t'.get? loc = t.get? loc

theorem sparesAt {t t' : Tree} {hidden : String} (directory : Nat)
    (present : t'.present = t.present)
    (solid : ∀ id, t.get? ⟨directory, hidden⟩ ≠ some ⟨id, .directory⟩)
    (others : ∀ {loc}, loc ≠ ⟨directory, hidden⟩ → t'.get? loc = t.get? loc) :
    t.Spares hidden t' := by
  refine ⟨present, ?_, fun apart => others fun same => apart (same ▸ rfl)⟩
  intro loc id found
  have apart : loc ≠ ⟨directory, hidden⟩ := by
    rintro rfl
    exact solid id found
  exact (others apart).trans found

theorem towardSpared {t t' : Tree} {hidden : String} {p : Path} (spares : t.Spares hidden t')
    (onward : (t.toward p).outlook ≠ .astray) (apart : hidden ∉ p.pieces) :
    t'.toward p = t.toward p := by
  have base : t'.base p = t.base p := by simp only [base, spares.present]
  have other : ∀ {name}, name ∈ p.pieces → name ≠ hidden := fun member same => apart (same ▸ member)
  rw [toward, base]
  refine approachUpheld ⟨fun _ found => spares.directories found, ?_⟩ onward ?_
  · intro loc id content mode member found
    exact ⟨id, content, mode, (spares.others (other member)).trans found⟩
  · intro m l ahead
    obtain ⟨free, member, _⟩ := approachHeaded ahead
    exact (spares.others (other member)).trans free

theorem spotSpared {t t' : Tree} {hidden : String} {p : Path} (spares : t.Spares hidden t')
    (onward : (t.toward p.directory).outlook ≠ .astray) (apart : hidden ∉ p.directory.pieces)
    (other : lastName p ≠ hidden) : t'.spot p = t.spot p := by
  rw [spot, spot, place?, place?, towardSpared spares onward apart]
  split
  · exact spares.others other
  · rfl

theorem towardPlaced {t t' : Tree} {hidden : String} {place : Location} {p : Path}
    (present : t'.present = t.present)
    (directories : ∀ {loc id},
      t.get? loc = some ⟨id, .directory⟩ → t'.get? loc = some ⟨id, .directory⟩)
    (there : ∃ id content mode, t'.get? place = some ⟨id, .file content mode⟩)
    (others : ∀ {loc}, loc.name ≠ hidden → loc ≠ place → t'.get? loc = t.get? loc)
    (onward : (t.toward p).outlook ≠ .astray) (apart : hidden ∉ p.pieces)
    (clear : ∀ m l, (t.toward p).ahead = m :: l → ⟨standing (t.toward p).way, m⟩ ≠ place) :
    t'.toward p = t.toward p := by
  have base : t'.base p = t.base p := by simp only [base, present]
  have other : ∀ {name}, name ∈ p.pieces → name ≠ hidden := fun member same => apart (same ▸ member)
  rw [toward, base]
  refine approachUpheld ⟨fun _ found => directories found, ?_⟩ onward ?_
  · intro loc id content mode member found
    by_cases here : loc = place
    · exact here ▸ there
    · exact ⟨id, content, mode, (others (other member) here).trans found⟩
  · intro m l ahead
    obtain ⟨free, member, _⟩ := approachHeaded ahead
    exact (others (other member) (clear m l ahead)).trans free

theorem knownSpared {t t' : Tree} {id : Nat}
    (directories : ∀ {loc id},
      t.get? loc = some ⟨id, .directory⟩ → t'.get? loc = some ⟨id, .directory⟩)
    (known : t.Known id) : t'.Known id :=
  known.imp_right fun ⟨loc, found⟩ => ⟨loc, directories found⟩

end Tree

structure Draft.Fresh (d : Draft) : Prop where
  proper : d.name ≠ "" ∧ d.name ≠ "." ∧ d.name ≠ ".."
  apart : d.name ∉ d.path.pieces

structure Draft.Makeable (d : Draft) (t : Tree) : Prop where
  fresh : d.Fresh
  unused : ∀ {loc e}, t.get? loc = some e → loc.name ≠ d.name
  fits : d.overlong = false

namespace Writing

def file? : Writing → Option Location
  | .filling file _ | .syncing file | .examining file | .permitting file _ | .replacing file
  | .discarding file _ => some file
  | _ => none

/- The one thing that a step of a writing may do to the tree. -/
inductive Deed (d : Draft) (fate : Except WriteFailure Outcome) (bits : Nat) (t t' : Tree) :
    Prop where
  | idle (same : t' = t)
  | paved {way m l outlook} (ahead : t.toward d.path.directory = ⟨way, m :: l, outlook⟩)
      (free : Tree.barred? d.path.directory = none)
      (made : t' = t.add ⟨Tree.standing way, m⟩ .directory)
  | drafted (spares : t.Spares d.name t')
  | placed {way} (written : fate = .ok .written)
      (free : Tree.barred? d.path.directory = none)
      (arrived : t.toward d.path.directory = ⟨way, [], .clear⟩)
      (lands : t.landing? d.path = none)
      (present : t'.present = t.present)
      (directories : ∀ {loc id}, t.get? loc = some ⟨id, .directory⟩ →
        t'.get? loc = some ⟨id, .directory⟩)
      (there : ∃ id, t'.get? ⟨Tree.standing way, Tree.lastName d.path⟩ =
        some ⟨id, .file (.data d.content) bits⟩)
      (others : ∀ {loc}, loc.name ≠ d.name → loc ≠ ⟨Tree.standing way, Tree.lastName d.path⟩ →
        t'.get? loc = t.get? loc)

end Writing

namespace Tree

def Arrives (t : Tree) (p : Path) : Prop := ∃ way, t.toward p = ⟨way, [], .clear⟩

def Refuses (t : Tree) (dir : Path) (why : Refusal) : Prop :=
  barred? dir = some why ∨
    barred? dir = none ∧ (t.toward dir).ahead = [] ∧
      (t.toward dir).outlook.errno?.map .system = some why

def Open (t : Tree) (dir : Path) : Prop :=
  barred? dir = none ∧ ((t.toward dir).outlook = .clear ∨ (t.toward dir).outlook = .overlong)

end Tree

namespace Writing

def Drafts (d : Draft) (t : Tree) (file : Location) (bytes : Bytes) (mode : Nat) : Prop :=
  ∃ way id, t.toward d.path.directory = ⟨way, [], .clear⟩ ∧ Tree.barred? d.path.directory = none ∧
    file = ⟨Tree.standing way, d.name⟩ ∧ t.get? file = some ⟨id, .file (.data bytes) mode⟩

structure Due (d : Draft) (fate : Except WriteFailure Outcome) (bits : Nat) (t : Tree) : Prop where
  fate : t.fate d = fate
  bits : t.bits d.path = bits
  differs : t.held? d.path ≠ some d.content

def Stage (d : Draft) (fate : Except WriteFailure Outcome) (bits : Nat) (t : Tree) :
    Writing → Prop
  | .comparing => t.fate d = fate ∧ t.bits d.path = bits
  | .climbing dir missing => Due d fate bits t ∧ dir.Trimmed ∧
      dir.Ladder missing d.path.directory ∧ (missing = [] ∨ t.Open d.path.directory)
  | .confirming dir missing why => Due d fate bits t ∧ dir.isEmpty = false ∧
      dir.Ladder missing d.path.directory ∧ (missing = [] ∨ t.Open d.path.directory) ∧
      (Tree.barred? dir = none ∧ t.Arrives dir ∨
        t.Refuses dir why ∧ t.hindrance? d.path.directory = some why)
  | .descending missing => Due d fate bits t ∧ Tree.barred? d.path.directory = none ∧
      ∃ above : Path, t.Arrives above ∧ above.Ladder missing d.path.directory ∧
        (missing = [] ∨ t.Open d.path.directory)
  | .creating => Due d fate bits t ∧ Tree.barred? d.path.directory = none ∧
      t.Arrives d.path.directory
  | .filling file chunks => Due d fate bits t ∧ ∃ bytes,
      Drafts d t file bytes Tree.draftMode ∧ bytes ++ chunks.flatten = d.content
  | .syncing file => Due d fate bits t ∧ Drafts d t file d.content Tree.draftMode
  | .examining file => Due d fate bits t ∧ Drafts d t file d.content Tree.draftMode
  | .permitting file mode => Due d fate bits t ∧ Drafts d t file d.content Tree.draftMode ∧
      (t.landing? d.path = none → mode = bits)
  | .replacing file => Due d fate bits t ∧ ∃ mode, Drafts d t file d.content mode ∧
      (t.landing? d.path = none → mode = bits)
  | .discarding file why => Due d fate bits t ∧ t.landing? d.path = some why ∧
      ∃ bytes mode, Drafts d t file bytes mode
  | .done result => result = fate ∧
      (Tree.barred? d.path.directory = none → (t.toward d.path.directory).ahead = []) ∧
      (fate = .ok .written → ∃ id, t.spot d.path = some ⟨id, .file (.data d.content) bits⟩)

/- The writing of a draft, on the way to its fate, in a tree that others may change as well. -/
structure Underway (d : Draft) (fate : Except WriteFailure Outcome) (bits : Nat) (t : Tree)
    (w : Writing) : Prop where
  settled : t.Settled
  straight : t.Straight d.path
  hidden : ∀ {loc e}, t.get? loc = some e → loc.name = d.name → w.file? = some loc
  fits : ∀ {file}, w.file? = some file → d.overlong = false
  stage : Stage d fate bits t w

end Writing
end BuildProbe
