import BuildProbe.Cancel.Timeline

/-!
When a signal is heard. What has been heard at a moment is heard at every later one, and without
a signal nothing is ever heard, however often and whenever the handle is dropped.
-/
namespace BuildProbe

theorem actKeeps {c : Channel} (signalled : c.signalled = true) (a : Act) :
    (c.act a).signalled = true := by
  cases a with
  | signal =>
    simp only [Channel.act, Channel.signal]
    split
    · rfl
    · exact signalled
  | drop => exact signalled

theorem actsKeep {c : Channel} (signalled : c.signalled = true) (acts : List Act) :
    (acts.foldl Channel.act c).signalled = true := by
  induction acts generalizing c with
  | nil => exact signalled
  | cons a acts ih => exact ih (actKeeps signalled a)

theorem actsSilent {c : Channel} (quiet : c.signalled = false) {acts : List Act}
    (silent : Act.signal ∉ acts) : (acts.foldl Channel.act c).signalled = false := by
  induction acts generalizing c with
  | nil => exact quiet
  | cons a acts ih =>
    have rest : Act.signal ∉ acts := fun member => silent (List.mem_cons_of_mem a member)
    cases a with
    | signal => exact absurd List.mem_cons_self silent
    | drop => exact ih (c := c.dropHandle) quiet rest

namespace Timeline

theorem heardLater {t : Timeline} {m n : Moment} (earlier : m.upTo <+: n.upTo)
    (heard : t.heardBy m = true) : t.heardBy n = true := by
  obtain ⟨later, split⟩ := earlier
  unfold heardBy channel at heard ⊢
  rw [← split, List.flatMap_append, List.foldl_append]
  exact actsKeep heard _

theorem unheardEarlier {t : Timeline} {m n : Moment} (earlier : m.upTo <+: n.upTo)
    (unheard : t.heardBy n = false) : t.heardBy m = false := by
  cases heard : t.heardBy m with
  | false => rfl
  | true => exact (heardLater earlier heard).symm.trans unheard

theorem silentUnheard {t : Timeline} (silent : ∀ m, Act.signal ∉ t.acts m) (m : Moment) :
    t.heardBy m = false := by
  refine actsSilent rfl ?_
  intro given
  obtain ⟨n, _, member⟩ := List.mem_flatMap.mp given
  exact silent n member

theorem quietUnheard (m : Moment) : quiet.heardBy m = false :=
  silentUnheard (fun _ => List.not_mem_nil) m

end Timeline
end BuildProbe
