import BuildProbe.Flag
import BuildProbe.Proofs.Text.Rows

/-!
What a probe says, written down and read again. A probe's output is a sequence of sayings, each on
a line of its own with an end of its own choice. Whatever the noise in between, the flags read
from it are those of the directives and the warnings are those of the warnings, in order; so
neither depends on the noise or on the ends of the lines.
-/
namespace BuildProbe.Directive

inductive Saying where
  | directive (value : String)
  | warning (message : String)
  | noise (line : String)
  deriving DecidableEq, Repr

namespace Saying

def text : Saying → List Char
  | directive value => Flag.directiveMark.toList ++ value.toList
  | warning message => warningMark.toList ++ message.toList
  | noise line => line.toList

def flag? : Saying → Option Flag
  | directive value => some ⟨value⟩
  | _ => none

def warning? : Saying → Option String
  | warning message => some message
  | _ => none

def meant : Saying → Bool
  | noise _ => false
  | _ => true

def mistaken : Saying → Bool
  | noise line =>
    Flag.directiveMark.toList.isPrefixOf line.toList || warningMark.toList.isPrefixOf line.toList
  | _ => false

def Clear (s : Saying) : Prop := '\n' ∉ s.text ∧ s.mistaken = false
instance (s : Saying) : Decidable s.Clear := by
  unfold Clear; infer_instance

theorem clearNoise {line : String} (clear : (noise line).Clear) :
    ¬Flag.directiveMark.toList <+: line.toList ∧ ¬warningMark.toList <+: line.toList := by
  simpa [mistaken, ← List.isPrefixOf_iff_prefix] using clear.2

end Saying

inductive Terminator where
  | feed
  | returnFeed
  deriving DecidableEq, Repr

def Terminator.text : Terminator → List Char
  | feed => ['\n']
  | returnFeed => ['\r', '\n']

structure Said where
  saying : Saying
  terminator : Terminator
  deriving DecidableEq, Repr

namespace Said

def text (s : Said) : List Char := s.saying.text ++ s.terminator.text

def Clear (s : Said) : Prop :=
  s.saying.Clear ∧ (s.terminator = .feed → s.saying.text.getLast? ≠ some '\r')
instance (s : Said) : Decidable s.Clear := by
  unfold Clear; infer_instance

end Said

structure Speech where
  said : List Said
  last : Option Saying
  deriving DecidableEq, Repr

namespace Speech

def text (s : Speech) : List Char := s.said.flatMap Said.text ++ (s.last.map Saying.text).getD []

def output (s : Speech) : String := String.ofList s.text

def sayings (s : Speech) : List Saying := s.said.map Said.saying ++ s.last.toList

def meant (s : Speech) : List Saying := s.sayings.filter Saying.meant

def Clear (s : Speech) : Prop := (∀ line ∈ s.said, line.Clear) ∧ ∀ saying ∈ s.last, saying.Clear
instance (s : Speech) : Decidable s.Clear := by
  unfold Clear; infer_instance

end Speech

theorem saidLine {s : Said} (clear : s.Clear) (rest : List Char) :
    Text.lines (s.text ++ rest) = s.saying.text :: Text.lines rest := by
  obtain ⟨⟨plain, _⟩, kept⟩ := clear
  unfold Said.text Terminator.text
  cases ended : s.terminator with
  | feed =>
    rw [List.append_assoc, List.singleton_append, Text.linesCons plain,
      Text.chompOther (kept ended)]
  | returnFeed =>
    have whole : '\n' ∉ s.saying.text ++ ['\r'] := by simpa using plain
    rw [show s.saying.text ++ ['\r', '\n'] ++ rest = (s.saying.text ++ ['\r']) ++ '\n' :: rest by simp,
      Text.linesCons whole, Text.chompReturn]

theorem afterNone {mark text : List Char} : Text.after? mark text = none ↔ ¬mark <+: text := by
  rw [Option.eq_none_iff_forall_ne_some]
  constructor
  · rintro missing ⟨rest, same⟩
    exact missing rest (Text.afterSome.mpr same.symm)
  · intro apart rest found
    exact apart ⟨rest, (Text.afterSome.mp found).symm⟩

theorem marksApart {mark other : List Char} (long : 7 ≤ mark.length) (long' : 7 ≤ other.length)
    (differ : mark.take 7 ≠ other.take 7) (rest : List Char) : ¬mark <+: other ++ rest := by
  rintro ⟨more, same⟩
  have front := congrArg (List.take 7) same
  rw [List.take_append_of_le_length long, List.take_append_of_le_length long'] at front
  exact differ front

theorem clearFlag {s : Saying} (clear : s.Clear) : Flag.ofLine? s.text = s.flag? := by
  unfold Flag.ofLine?
  cases s with
  | directive value =>
    rw [show Text.after? Flag.directiveMark.toList (Saying.directive value).text = some value.toList
      from Text.afterSome.mpr rfl]
    simp [Saying.flag?]
  | warning message =>
    have apart := @marksApart Flag.directiveMark.toList warningMark.toList
      (by decide +kernel) (by decide +kernel) (by decide +kernel) message.toList
    rw [show Text.after? _ (Saying.warning message).text = none from afterNone.mpr apart]
    rfl
  | noise line =>
    rw [show Text.after? _ (Saying.noise line).text = none from
      afterNone.mpr (Saying.clearNoise clear).1]
    rfl

theorem clearWarning {s : Saying} (clear : s.Clear) : warningOfLine? s.text = s.warning? := by
  unfold warningOfLine?
  cases s with
  | directive value =>
    have apart := @marksApart warningMark.toList Flag.directiveMark.toList
      (by decide +kernel) (by decide +kernel) (by decide +kernel) value.toList
    rw [show Text.after? _ (Saying.directive value).text = none from afterNone.mpr apart]
    rfl
  | warning message =>
    rw [show Text.after? warningMark.toList (Saying.warning message).text = some message.toList
      from Text.afterSome.mpr rfl]
    simp [Saying.warning?]
  | noise line =>
    rw [show Text.after? _ (Saying.noise line).text = none from
      afterNone.mpr (Saying.clearNoise clear).2]
    rfl

section Reading

variable {α : Type} {reader : List Char → Option α} {value : Saying → Option α}

theorem lastRead (blank : reader [] = none)
    (reads : ∀ {s : Saying}, s.Clear → reader s.text = value s) {last : Option Saying}
    (clear : ∀ s ∈ last, s.Clear) :
    (Text.lines ((last.map Saying.text).getD [])).filterMap reader =
      last.toList.filterMap value := by
  cases last with
  | none => rfl
  | some s =>
    have plain := (clear s rfl).1
    have read := reads (clear s rfl)
    simp only [Option.map_some, Option.getD_some, Option.toList_some, Text.linesPlain plain]
    -- An empty line without an end is no line, but then it is nothing that anybody reads.
    by_cases empty : s.text = []
    · rw [empty, blank] at read
      simp [Text.unterminated, empty, ← read]
    · rw [Text.unterminated, if_neg empty, List.filterMap_cons, List.filterMap_cons, read]
      rfl

theorem speechRead (blank : reader [] = none)
    (reads : ∀ {s : Saying}, s.Clear → reader s.text = value s) {s : Speech} (clear : s.Clear) :
    (Text.lines s.text).filterMap reader = s.sayings.filterMap value := by
  obtain ⟨said, last⟩ := s
  obtain ⟨each, final⟩ := clear
  unfold Speech.text Speech.sayings
  dsimp only at each final ⊢
  induction said with
  | nil => exact lastRead blank reads final
  | cons line said ih =>
    obtain ⟨first, others⟩ := List.forall_mem_cons.mp each
    rw [List.flatMap_cons, List.append_assoc, saidLine first, List.filterMap_cons, ih others,
      reads first.1, List.map_cons, List.cons_append, List.filterMap_cons]

theorem meantRead (silent : ∀ line, value (.noise line) = none) (s : Speech) :
    s.meant.filterMap value = s.sayings.filterMap value := by
  rw [Speech.meant, List.filterMap_filter]
  refine congrArg (List.filterMap · s.sayings) (funext fun saying => ?_)
  cases saying with
  | noise line => exact (silent line).symm
  | _ => rfl

end Reading

theorem outputRead {s : Speech} (clear : s.Clear) :
    flags s.output = s.sayings.filterMap Saying.flag? ∧
      warnings s.output = s.sayings.filterMap Saying.warning? := by
  rw [flags, warnings, Speech.output, String.toList_ofList]
  exact ⟨speechRead rfl clearFlag clear, speechRead rfl clearWarning clear⟩

theorem speechUnderstood {s : Speech} (clear : s.Clear) :
    flags s.output = s.sayings.filterMap Saying.flag? ∧
      warnings s.output = s.sayings.filterMap Saying.warning? ∧
      ∀ other : Speech, other.Clear → other.meant = s.meant →
        flags other.output = flags s.output ∧ warnings other.output = warnings s.output := by
  obtain ⟨asked, warned⟩ := outputRead clear
  refine ⟨asked, warned, ?_⟩
  intro other clear' same
  obtain ⟨asked', warned'⟩ := outputRead clear'
  refine ⟨?_, ?_⟩
  · rw [asked, asked', ← meantRead fun _ => rfl, ← meantRead fun _ => rfl, same]
  · rw [warned, warned', ← meantRead fun _ => rfl, ← meantRead fun _ => rfl, same]

theorem noiseIgnored :
    let warned := Saying.warning "cargo:rustc-cfg=b"
    let loud : Speech := ⟨[⟨.noise "cargo:rustc-cfg", .feed⟩, ⟨.directive "a\r", .returnFeed⟩,
      ⟨.noise "", .returnFeed⟩], some warned⟩
    let terse : Speech := ⟨[⟨.directive "a\r", .returnFeed⟩, ⟨warned, .feed⟩], none⟩
    loud.Clear ∧ flags loud.output = [⟨"a\r"⟩] ∧ warnings loud.output = ["cargo:rustc-cfg=b"] ∧
      flags terse.output = flags loud.output ∧ warnings terse.output = warnings loud.output := by
  intro warned loud terse
  have clear : loud.Clear := by decide +kernel
  obtain ⟨asked, told, others⟩ := speechUnderstood clear
  exact ⟨clear, asked, told, others terse (by decide +kernel) (by decide +kernel)⟩

end BuildProbe.Directive
