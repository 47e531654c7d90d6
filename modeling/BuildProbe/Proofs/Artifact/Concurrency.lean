import BuildProbe.Proofs.Artifact.Contest
import Mathlib

/-!
What concurrent writings come to, whatever the order of their steps. Each is done when it has had
its steps. When both are for one path and succeed, its readers see what was there, and then one
artifact or the other as a whole; when they are for different files, each does what it does alone.
-/
namespace BuildProbe.Race

open Writing

structure Private (t : Tree) (d : Draft) : Prop where
  unused : Unused t d
  unheard : t.Unheard d.name

structure Concurrent (a b : Draft) (t : Tree) (schedule : List Side) : Prop where
  ends : ∀ s : Side, Writing.comparing.bound (s.pick a b) ≤ schedule.count s →
    ∃ result, ((start t).run a b schedule).writing s = .done result
  together : a.path = b.path → a.path.Proper → ∀ outcome : Side → Outcome,
    (((start t).run a b schedule).Ended fun s => .ok (outcome s)) →
      Together a b t schedule outcome
  separately : t.Straight a.path → t.Straight b.path → t.Apart a.path b.path →
    ∀ result : Side → Except WriteFailure Outcome, ((start t).run a b schedule).Ended result →
      Separately a b t ((start t).run a b schedule) result

theorem resultDone {w : Writing} {result : Except WriteFailure Outcome}
    (ended : w.result? = some result) : w = .done result := by
  cases w with
  | done result' => exact congrArg Writing.done (Option.some.inj ended)
  | _ => cases ended

theorem doneStays {a b : Draft} {r : Race} {s : Side} {result : Except WriteFailure Outcome}
    (ended : (r.writing s).result? = some result) (schedule : List Side) :
    ((r.run a b schedule).writing s).result? = some result := by
  induction schedule generalizing r with
  | nil => exact ended
  | cons s' schedule ih =>
    refine ih ?_
    rcases Side.otherwise (s := s') s with rfl | rfl
    · rw [(stepOwn a b r s).2, resultDone ended]
      rfl
    · rw [stepOther]
      exact ended

theorem runNearer {a b : Draft} {r : Race} {s : Side} (schedule : List Side)
    (going : ((r.run a b schedule).writing s).result? = none) :
    ((r.run a b schedule).writing s).bound (s.pick a b) + schedule.count s ≤
      (r.writing s).bound (s.pick a b) := by
  induction schedule generalizing r with
  | nil => simp [run]
  | cons s' schedule ih =>
    have later : ((r.run a b (s' :: schedule)).writing s).bound (s.pick a b) + schedule.count s ≤
        ((r.step a b s').writing s).bound (s.pick a b) := ih going
    rcases Side.otherwise (s := s') s with rfl | rfl
    · have first : (r.writing s).result? = none := by
        cases ended : (r.writing s).result? with
        | none => rfl
        | some result => rw [doneStays ended (s :: schedule)] at going; cases going
      have nearer := stepNearer (s.pick a b) r.tree first
      rw [(stepOwn a b r s).2] at later
      rw [List.count_cons_self]
      omega
    · have apart : s' ≠ s'.other := by cases s' <;> decide
      rw [stepOther] at later
      rw [List.count_cons_of_ne apart]
      exact later

theorem runEnds (a b : Draft) (t : Tree) {schedule : List Side} {s : Side}
    (enough : Writing.comparing.bound (s.pick a b) ≤ schedule.count s) :
    ∃ result, ((start t).run a b schedule).writing s = .done result := by
  cases ended : (((start t).run a b schedule).writing s).result? with
  | some result => exact ⟨result, resultDone ended⟩
  | none =>
    have left := runNearer schedule ended
    have more := stepNearer (s.pick a b) t ended
    rw [startWriting] at left
    omega

theorem raceConcurrent {t : Tree} {a b : Draft} (sound : t.Sound) (strangers : Strangers a b)
    (left : Private t a) (right : Private t b) (schedule : List Side) :
    Concurrent a b t schedule := by
  have owned : ∀ s : Side, Private t (s.pick a b) := Side.pickBoth left right
  refine ⟨fun s => runEnds a b t, fun same proper outcome ended => ?_,
    fun straight straight' apart result ended => ?_⟩
  · have path : ∀ s : Side, (s.pick a b).path = a.path :=
      Side.pickBoth (P := fun d : Draft => d.path = a.path) rfl same.symm
    exact raceTogether ⟨strangers, proper, path⟩
      (startContest sound (fun s => (owned s).unheard) fun s => (owned s).unused) ended
  · have both : ∀ s : Side, t.Straight (s.pick a b).path :=
      Side.pickBoth (P := fun d : Draft => t.Straight d.path) straight straight'
    exact raceSeparately (Tree.chainKnown sound.present) strangers both apart
      (fun s => (owned s).unused) ended

def nothing : Tree := ⟨∅, []⟩

theorem nothingThere (loc : Location) : nothing.get? loc = none := by
  simp [nothing, Tree.get?, Tree.names]

theorem nothingSound : nothing.Sound := by
  refine ⟨fun found => ?_, fun found => ?_, trivial⟩
  · rw [nothingThere] at found
    cases found
  · rw [nothingThere] at found
    cases found

theorem nothingPrivate (d : Draft) : Private nothing d := by
  refine ⟨fun found => ?_, fun linked => ?_⟩
  · rw [nothingThere] at found
    cases found
  · rw [nothingThere] at linked
    cases linked

theorem nothingStraight {p : Path} (named : Tree.Named p)
    (toward : nothing.toward p.directory = ⟨[], ["d"], .clear⟩) : nothing.Straight p := by
  refine ⟨named, ?_, ?_⟩
  · rw [toward]
    rintro ⟨⟩
  · rw [Tree.spotAhead (by rw [toward]; rintro ⟨⟩)]
    rintro _ _ ⟨⟩

def first : Draft := ⟨.ofText "d/x", [[0x61], [0x62]], ".a", "/"⟩

def second : Draft := ⟨.ofText "d/x", [[0x63]], ".b", "/"⟩

def third : Draft := ⟨.ofText "d/y", [[0x63]], ".b", "/"⟩

theorem rivalStrangers : Strangers first second := by
  refine ⟨⟨?_, ?_⟩, ⟨?_, ?_⟩, ?_, ?_, ?_⟩ <;> decide +kernel

theorem neighbourStrangers : Strangers first third := by
  refine ⟨⟨?_, ?_⟩, ⟨?_, ?_⟩, ?_, ?_, ?_⟩ <;> decide +kernel

theorem neighboursApart : nothing.Apart first.path third.path := by
  have toward : nothing.toward first.path.directory = ⟨[], ["d"], .clear⟩ := by decide +kernel
  have toward' : nothing.toward third.path.directory = ⟨[], ["d"], .clear⟩ := by decide +kernel
  refine ⟨fun under => ?_, fun under => ?_⟩
  · rw [Tree.Under, toward, toward'] at under
    exact absurd under.2.2 (by decide +kernel)
  · rw [Tree.Under, toward, toward'] at under
    exact absurd under.2.2 (by decide +kernel)

/- By turns: both find the directory missing, the left side makes it, and the right side, which is
told that it is there already, is the last to move its file. -/
def turns : List Side := (List.replicate 12 [Side.left, .right]).flatten

theorem turnsConcurrent :
    nothing.Sound ∧ (Strangers first second ∧ Strangers first third) ∧
      (Private nothing first ∧ Private nothing second ∧ Private nothing third) ∧
      (first.path = second.path ∧ first.path.Proper ∧
        (((start nothing).run first second turns).Ended fun _ => .ok .written) ∧
        (start nothing).renames first second turns = [.left, .right] ∧
        Concurrent first second nothing turns) ∧
      (nothing.Straight first.path ∧ nothing.Straight third.path ∧
        nothing.Apart first.path third.path ∧
        (((start nothing).run first third turns).Ended fun _ => .ok .written) ∧
        Concurrent first third nothing turns) := by
  have ended : ((start nothing).run first second turns).Ended fun _ => .ok .written := by
    intro s
    cases s <;> cbv
  have ended' : ((start nothing).run first third turns).Ended fun _ => .ok .written := by
    intro s
    cases s <;> cbv
  refine ⟨nothingSound, ⟨rivalStrangers, neighbourStrangers⟩,
    ⟨nothingPrivate first, nothingPrivate second, nothingPrivate third⟩,
    ⟨rfl, by decide +kernel, ended, by cbv, ?_⟩,
    ⟨nothingStraight (by decide +kernel) (by decide +kernel),
      nothingStraight (by decide +kernel) (by decide +kernel), neighboursApart, ended', ?_⟩⟩
  · exact raceConcurrent nothingSound rivalStrangers (nothingPrivate first)
      (nothingPrivate second) turns
  · exact raceConcurrent nothingSound neighbourStrangers (nothingPrivate first)
      (nothingPrivate third) turns

def outside : Draft := ⟨.ofText "m/../x", [[0x61]], ".a", "/"⟩

def inside : Draft := ⟨.ofText "m/z", [[0x62]], ".b", "/"⟩

def ready : Tree := nothing.add ⟨0, "x"⟩ (.file (.data [0x61]) 0o644)

theorem readyThere {loc : Location} {e : Entry} (found : ready.get? loc = some e) :
    loc = ⟨0, "x"⟩ ∧ e.node = .file (.data [0x61]) 0o644 := by
  rw [ready, Tree.getAdd, nothingThere] at found
  split at found
  · rename_i same
    cases found
    exact ⟨same, rfl⟩
  · cases found

theorem readyPrivate {d : Draft} (other : d.name ≠ "x") : Private ready d := by
  refine ⟨fun found named => ?_, fun linked => ?_⟩
  · rw [(readyThere found).1] at named
    exact other named.symm
  · cases (readyThere linked).2

def overtaking : List Side := List.replicate 12 .right ++ [.left]

/- A path out of a directory that is not there yet leads nowhere until somebody makes that
directory: alone the artifact is written once more, overtaken by the other writing it is found. -/
theorem overtakenElsewhere :
    Strangers outside inside ∧ Private ready outside ∧ Private ready inside ∧
      (∀ loc id target, ready.get? loc ≠ some ⟨id, .link target⟩) ∧
      ¬ outside.path.pieces <+: inside.path.pieces ∧
      ¬ inside.path.pieces <+: outside.path.pieces ∧
      (outside.write .sound ready).2 = .ok .written ∧
      ((start ready).run outside inside overtaking).left = .done (.ok .unchanged) ∧
      ((start ready).run outside inside overtaking).right = .done (.ok .written) ∧
      ((start ready).run outside inside overtaking).tree.locate? outside.path = some ⟨0, "x"⟩ ∧
      ((start ready).run outside inside overtaking).tree.locate? inside.path = some ⟨2, "z"⟩ := by
  have strangers : Strangers outside inside := by
    refine ⟨⟨?_, ?_⟩, ⟨?_, ?_⟩, ?_, ?_, ?_⟩ <;> decide +kernel
  have linkless : ∀ loc id target, ready.get? loc ≠ some ⟨id, .link target⟩ := by
    intro loc id target linked
    cases (readyThere linked).2
  exact ⟨strangers, readyPrivate (by decide +kernel), readyPrivate (by decide +kernel), linkless,
    by decide +kernel, by decide +kernel, by cbv, by cbv, by cbv, by cbv, by cbv⟩

end BuildProbe.Race
