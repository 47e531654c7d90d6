import BuildProbe.Proofs.Tree.Calls

/-!
Walks in a tree whose directories have one place each. The directories in which a walk has come to
stand are then known from the last of them alone. So a link leads to the same place whoever comes
by: a path that ends at a file through the link in its own place has not come through that link on
its way there, and still gets there when the link is replaced.
-/
namespace BuildProbe.Tree

open Text (Bytes)

def Chain (t : Tree) : List Nat → Prop
  | [] => True
  | id :: way => (∃ name, t.get? ⟨standing way, name⟩ = some ⟨id, .directory⟩) ∧ t.Chain way

structure Sound (t : Tree) : Prop where
  single : ∀ {loc loc' id}, t.get? loc = some ⟨id, .directory⟩ →
    t.get? loc' = some ⟨id, .directory⟩ → loc = loc'
  top : ∀ {loc}, t.get? loc ≠ some ⟨root, .directory⟩
  present : t.Chain t.present

theorem chainUnique {t : Tree} (sound : t.Sound) {way way' : List Nat} (chain : t.Chain way)
    (chain' : t.Chain way') (same : standing way = standing way') : way = way' := by
  induction way generalizing way' with
  | nil =>
    cases way' with
    | nil => rfl
    | cons id rest =>
      obtain ⟨⟨name, found⟩, _⟩ := chain'
      cases show root = id from same
      exact absurd found sound.top
  | cons id rest ih =>
    obtain ⟨⟨name, found⟩, chain⟩ := chain
    cases way' with
    | nil =>
      cases show id = root from same
      exact absurd found sound.top
    | cons id' rest' =>
      obtain ⟨⟨name', found'⟩, chain'⟩ := chain'
      cases show id = id' from same
      have place := sound.single found found'
      rw [ih chain chain' (Location.mk.inj place).1]

theorem chainTail {t : Tree} {way : List Nat} (chain : t.Chain way) : t.Chain way.tail := by
  cases way with
  | nil => exact chain
  | cons id rest => exact chain.2

theorem walkChain {t : Tree} {follow : Bool} {links : Nat} {way last : List Nat}
    {pieces : List String} (chain : t.Chain way)
    (led : t.walk follow links way pieces = .ok (.inside last)) : t.Chain last := by
  fun_induction walk t follow links way pieces with
  | case1 => cases led; exact chain
  | case2 links way piece rest skip ih => exact ih chain led
  | case3 links way rest name ih => exact ih (chainTail chain) led
  | case6 links way piece rest name up long id here ih => exact ih ⟨⟨piece, here⟩, chain⟩ led
  | case11 way piece rest name up long id target here final links ih =>
    refine ih ?_ led
    split
    · trivial
    · exact chain
  | _ => cases led

theorem walkBudget {t : Tree} {follow : Bool} {links more : Nat} {way : List Nat}
    {pieces : List String} {goal : Goal} (enough : links ≤ more)
    (led : t.walk follow links way pieces = .ok goal) :
    t.walk follow more way pieces = .ok goal := by
  fun_induction walk t follow links way pieces generalizing more with
  | case1 => rw [walk]; exact led
  | case2 links way piece rest skip ih => rw [walk, if_pos skip]; exact ih enough led
  | case3 links way rest name ih => rw [walk, if_neg name, if_pos rfl]; exact ih enough led
  | case6 links way piece rest name up long id here ih =>
    rw [walk, if_neg name, if_neg up, if_neg long, here]
    exact ih enough led
  | case7 links way piece name up long id content mode here =>
    rw [walk, if_neg name, if_neg up, if_neg long, here]
    exact led
  | case9 links way piece rest name up long id target here final =>
    rw [walk, if_neg name, if_neg up, if_neg long, here]
    simp only [if_pos final]
    exact led
  | case11 way piece rest name up long id target here final links ih =>
    obtain ⟨more, rfl⟩ : ∃ m, more = m + 1 := ⟨more - 1, by omega⟩
    rw [walk, if_neg name, if_neg up, if_neg long, here]
    simp only [if_neg final]
    exact ih (by omega) led
  | _ => cases led

theorem walkOnce {t : Tree} {follow : Bool} {links links' : Nat} {way : List Nat}
    {pieces : List String} {goal goal' : Goal} (led : t.walk follow links way pieces = .ok goal)
    (led' : t.walk follow links' way pieces = .ok goal') : goal = goal' := by
  have first := walkBudget (Nat.le_max_left links links') led
  rw [walkBudget (Nat.le_max_right links links') led'] at first
  exact Except.ok.inj first.symm

theorem walkResume {t : Tree} {links : Nat} {way last : List Nat} {before : List String}
    (first : t.walk true links way before = .ok (.inside last)) {after : List String}
    (more : after ≠ []) (follow : Bool) :
    ∃ left, t.walk follow links way (before ++ after) = t.walk follow left last after := by
  fun_induction walk t true links way before with
  | case1 links way => cases first; exact ⟨links, rfl⟩
  | case2 links way piece rest skip ih =>
    rw [List.cons_append, walk, if_pos skip]
    exact ih first
  | case3 links way rest name ih =>
    rw [List.cons_append, walk, if_neg name, if_pos rfl]
    exact ih first
  | case6 links way piece rest name up long id here ih =>
    rw [List.cons_append, walk, if_neg name, if_neg up, if_neg long, here]
    exact ih first
  | case11 way piece rest name up long id target here final links ih =>
    have goesOn : ¬((rest ++ after = []) ∧ (!follow) = true) :=
      fun ended => more (List.append_eq_nil_iff.mp ended.1).2
    rw [List.cons_append, walk, if_neg name, if_neg up, if_neg long, here]
    simp only [if_neg goesOn, ← List.append_assoc]
    exact ih first
  | _ => cases first

theorem walkFirst {t : Tree} {links : Nat} {way last : List Nat} {before after : List String}
    (led : t.walk true links way (before ++ after) = .ok (.inside last)) :
    ∃ mid, t.walk true links way before = .ok (.inside mid) := by
  generalize whole : before ++ after = pieces at led
  fun_induction walk t true links way pieces generalizing before with
  | case1 links way =>
    obtain ⟨rfl, _⟩ := List.append_eq_nil_iff.mp whole
    exact ⟨way, by rw [walk]⟩
  | case2 links way piece rest skip ih =>
    cases before with
    | nil => exact ⟨way, by rw [walk]⟩
    | cons first before =>
      obtain ⟨rfl, same⟩ := List.cons.inj whole
      rw [walk, if_pos skip]
      exact ih same led
  | case3 links way rest name ih =>
    cases before with
    | nil => exact ⟨way, by rw [walk]⟩
    | cons first before =>
      obtain ⟨rfl, same⟩ := List.cons.inj whole
      rw [walk, if_neg name, if_pos rfl]
      exact ih same led
  | case6 links way piece rest name up long id here ih =>
    cases before with
    | nil => exact ⟨way, by rw [walk]⟩
    | cons first before =>
      obtain ⟨rfl, same⟩ := List.cons.inj whole
      rw [walk, if_neg name, if_neg up, if_neg long, here]
      exact ih same led
  | case11 way piece rest name up long id target here final links ih =>
    cases before with
    | nil => exact ⟨way, by rw [walk]⟩
    | cons first before =>
      obtain ⟨rfl, same⟩ := List.cons.inj whole
      have goesOn : ¬(before = [] ∧ (!true) = true) := by simp
      rw [walk, if_neg name, if_neg up, if_neg long, here]
      simp only [if_neg goesOn]
      have same : before ++ after = rest := same
      exact ih (by rw [List.append_assoc, same]) led
  | _ => cases led

/- The link at a location leads into no directory, for whoever stands there. -/
def Deadend (t : Tree) (loc : Location) (target : Path) : Prop :=
  ∀ way links last, t.Chain way → standing way = loc.directory →
    t.walk true links (if target.absolute then [] else way) target.pieces ≠ .ok (.inside last)

theorem walkAround {t t' : Tree} {place : Location} {id : Nat} {target : Path}
    (linked : t.get? place = some ⟨id, .link target⟩) (deadend : t.Deadend place target)
    (kept : ∀ {loc e}, t.get? loc = some e → e.passable → loc ≠ place → t'.get? loc = some e)
    {links : Nat} {way last : List Nat} {pieces : List String} (chain : t.Chain way)
    (led : t.walk true links way pieces = .ok (.inside last)) :
    t'.walk true links way pieces = .ok (.inside last) := by
  fun_induction walk t true links way pieces with
  | case1 => rw [walk]; exact led
  | case2 links way piece rest skip ih => rw [walk, if_pos skip]; exact ih chain led
  | case3 links way rest name ih =>
    rw [walk, if_neg name, if_pos rfl]
    exact ih (chainTail chain) led
  | case6 links way piece rest name up long id here ih =>
    have elsewhere : (⟨standing way, piece⟩ : Location) ≠ place := by
      rintro rfl
      rw [linked] at here
      cases here
    rw [walk, if_neg name, if_neg up, if_neg long, kept here rfl elsewhere]
    exact ih ⟨⟨piece, here⟩, chain⟩ led
  | case11 way piece rest name up long id target' here final links ih =>
    have elsewhere : (⟨standing way, piece⟩ : Location) ≠ place := by
      rintro rfl
      rw [linked] at here
      cases here
      obtain ⟨mid, first⟩ := walkFirst led
      exact deadend way links mid chain rfl first
    rw [walk, if_neg name, if_neg up, if_neg long, kept here rfl elsewhere]
    simp only [if_neg final]
    refine ih ?_ led
    split
    · trivial
    · exact chain
  | _ => cases led

theorem baseChain {t : Tree} (sound : t.Sound) (p : Path) : t.Chain (t.base p) := by
  unfold base
  split
  · trivial
  · exact sound.present

theorem readEnd {t : Tree} {p : Path} {bytes : Bytes} (ends : t.read p = .ok bytes) :
    p.hasNul = false ∧ unfit? p = none ∧
      ∃ loc e, t.walk true linkLimit (t.base p) p.pieces = .ok (.at loc e) := by
  obtain ⟨id, content, mode, there, _⟩ := readOk.mp ends
  obtain ⟨plain, goal, led, same⟩ := statOk.mp there
  unfold resolve at led
  split at led <;> try contradiction
  rename_i fit
  refine ⟨plain, fit, ?_⟩
  cases goal with
  | inside way => cases same
  | «at» loc e => exact ⟨loc, e, led⟩

theorem linkDeadend {t : Tree} (sound : t.Sound) {p : Path} {loc : Location} {id : Nat}
    {target : Path} {bytes : Bytes} (place : t.slot p = .ok ⟨loc.directory, .name loc.name, false⟩)
    (linked : t.get? loc = some ⟨id, .link target⟩) (ends : t.read p = .ok bytes) :
    t.Deadend loc target := by
  obtain ⟨_, way, walked, same⟩ := slotInside place
  have stands : loc.directory = standing way := congrArg Slot.directory same
  obtain ⟨⟨filled, stay, up⟩, pieces⟩ := slotBare place
  obtain ⟨_, _, other, e, led⟩ := readEnd ends
  obtain ⟨left, resumed⟩ := walkResume walked (List.cons_ne_nil loc.name []) true
  rw [pieces, resumed, walk, if_neg (by simp [filled, stay]), if_neg up] at led
  have here : t.get? ⟨standing way, loc.name⟩ = some ⟨id, .link target⟩ := by
    rw [← stands]; exact linked
  split at led <;> try contradiction
  simp only [here, Bool.not_true, Bool.false_eq_true, and_false, if_false, List.append_nil] at led
  cases left with
  | zero => cases led
  | succ left =>
    intro way' links last chain stand inside
    have alike : way' = way :=
      chainUnique sound chain (walkChain (baseChain sound p) walked) (stand.trans stands)
    cases walkOnce led (alike ▸ inside)

theorem slotUncrossed {t t' : Tree} (sound : t.Sound) {p : Path} {loc : Location} {bytes : Bytes}
    (place : t.slot p = .ok ⟨loc.directory, .name loc.name, false⟩) (ends : t.read p = .ok bytes)
    (replaceable : ∀ old, t.get? loc = some old → old.isDirectory = false)
    (present : t'.present = t.present)
    (kept : ∀ {other e}, t.get? other = some e → e.passable → other ≠ loc →
      t'.get? other = some e) :
    t'.slot p = .ok ⟨loc.directory, .name loc.name, false⟩ := by
  obtain ⟨fit, way, walked, same⟩ := slotInside place
  have base : t'.base p = t.base p := by simp only [Tree.base, present]
  have led : t'.walk true linkLimit (t.base p) (splitLast p.pieces).1 = .ok (.inside way) := by
    by_cases linked : ∃ id target, t.get? loc = some ⟨id, .link target⟩
    · obtain ⟨id, target, linked⟩ := linked
      exact walkAround linked (linkDeadend sound place linked ends) kept (baseChain sound p) walked
    · refine walkBack ⟨present, fun {other e} found passable => ?_⟩ walked (by rintro _ _ ⟨⟩)
      refine kept found passable ?_
      rintro rfl
      obtain ⟨id, node⟩ := e
      cases node with
      | directory => cases replaceable _ found
      | file content mode => cases passable
      | link target => exact linked ⟨id, target, found⟩
  rw [slot, fit, same]
  simp only [base, led]

end BuildProbe.Tree
