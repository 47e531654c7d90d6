import BuildProbe.Proofs.Tree.Approach

/-!
What names lead to. Two trees in which the same names lead to the same nodes hold the same, although
their entries may have other identities. A pledge is something that will be in a tree: a chain of
new names, directories up to the last one. What is promised is what names lead to once the pledges
are kept. Making the first directory of a pledge, or putting a file in its place, keeps it.
-/
namespace BuildProbe.Tree

def sight (t : Tree) (directory : Nat) : List String → Option Node
  | [] => some .directory
  | name :: rest =>
    match t.get? ⟨directory, name⟩ with
    | none => none
    | some ⟨id, .directory⟩ => sight t id rest
    | some ⟨_, node⟩ => if rest = [] then some node else none

structure Pledge where
  base : Nat
  reach : List String
  last : Node

namespace Pledge

def tells (g : Pledge) (directory : Nat) (names : List String) : Option Node :=
  if g.base = directory ∧ names ≠ [] ∧ names <+: g.reach then
    some (if names = g.reach then g.last else .directory)
  else none

def entered (g : Pledge) (loc : Location) (id : Nat) : Pledge :=
  match g.reach with
  | [] => g
  | m :: l => if ⟨g.base, m⟩ = loc then ⟨id, l, g.last⟩ else g

def Takes (g : Pledge) (loc : Location) : Prop :=
  g.base = loc.directory ∧ ∃ l, g.reach = loc.name :: l

theorem enteredTaking {g : Pledge} {loc : Location} (id : Nat) (takes : g.Takes loc) :
    ∃ l, g.reach = loc.name :: l ∧ g.entered loc id = ⟨id, l, g.last⟩ := by
  obtain ⟨base, l, reach⟩ := takes
  refine ⟨l, reach, ?_⟩
  rw [entered, reach]
  exact if_pos (by rw [base])

theorem enteredOther {g : Pledge} {loc : Location} (id : Nat) (other : ¬ g.Takes loc) :
    g.entered loc id = g := by
  unfold entered
  split
  · rfl
  · rename_i m l reach
    refine if_neg ?_
    rintro rfl
    exact other ⟨rfl, l, reach⟩

theorem tellsElsewhere {g : Pledge} {directory : Nat} (elsewhere : g.base ≠ directory)
    (names : List String) : g.tells directory names = none :=
  if_neg fun h => elsewhere h.1

theorem tellsOther {g : Pledge} {directory : Nat} {name : String} (rest : List String)
    (other : ¬ g.Takes ⟨directory, name⟩) : g.tells directory (name :: rest) = none := by
  refine if_neg fun ⟨base, _, leads⟩ => other ⟨base, ?_⟩
  obtain ⟨more, whole⟩ := leads
  exact ⟨rest ++ more, whole.symm⟩

theorem tellsFirst {g : Pledge} {loc : Location} (takes : g.Takes loc)
    (solid : g.reach = [loc.name] → g.last = .directory) :
    g.tells loc.directory [loc.name] = some .directory := by
  obtain ⟨base, l, reach⟩ := takes
  have leads : g.base = loc.directory ∧ [loc.name] ≠ [] ∧ [loc.name] <+: g.reach :=
    ⟨base, List.cons_ne_nil _ _, reach ▸ ⟨l, rfl⟩⟩
  rw [tells, if_pos leads]
  split
  · rename_i whole
    rw [solid whole.symm]
  · rfl

theorem tellsInside {g : Pledge} {id : Nat} (old : g.base ≠ id) (loc : Location) (next : String)
    (rest : List String) :
    (g.entered loc id).tells id (next :: rest) =
      g.tells loc.directory (loc.name :: next :: rest) := by
  by_cases takes : g.Takes loc
  · obtain ⟨l, reach, entered⟩ := enteredTaking id takes
    rw [entered, tells, tells, reach]
    simp only [takes.1, ne_eq, reduceCtorEq, not_false_eq_true, true_and,
      List.cons_prefix_cons, List.cons.injEq]
  · rw [enteredOther id takes, tellsElsewhere old]
    exact (tellsOther (next :: rest) (show ¬ g.Takes ⟨loc.directory, loc.name⟩ from takes)).symm

theorem enteredQuiet (g : Pledge) {id : Nat} {loc : Location} (other : loc.directory ≠ id)
    (rest : List String) : (g.entered loc id).tells loc.directory (loc.name :: rest) = none := by
  by_cases takes : g.Takes loc
  · obtain ⟨l, _, entered⟩ := enteredTaking id takes
    rw [entered]
    exact tellsElsewhere (Ne.symm other) _
  · rw [enteredOther id takes]
    exact tellsOther rest (show ¬ g.Takes ⟨loc.directory, loc.name⟩ from takes)

theorem enteredTells (g : Pledge) {id directory : Nat} {name : String} {loc : Location}
    (stood : directory ≠ id) (elsewhere : (⟨directory, name⟩ : Location) ≠ loc)
    (rest : List String) :
    (g.entered loc id).tells directory (name :: rest) = g.tells directory (name :: rest) := by
  by_cases takes : g.Takes loc
  · obtain ⟨l, reach, entered⟩ := enteredTaking id takes
    have other : ¬ g.Takes ⟨directory, name⟩ := by
      rintro ⟨base, l', reach'⟩
      rw [reach] at reach'
      have last : name = loc.name := (List.cons.inj reach').1.symm
      have stand : directory = loc.directory := base.symm.trans takes.1
      exact elsewhere (by rw [stand, last])
    rw [entered, tellsOther rest other]
    exact tellsElsewhere (Ne.symm stood) _
  · rw [enteredOther id takes]

end Pledge

def promised (t : Tree) (pledges : List Pledge) : Nat → List String → Option Node
  | _, [] => some .directory
  | directory, name :: rest =>
    (pledges.findSome? (·.tells directory (name :: rest))).or
      (match t.get? ⟨directory, name⟩ with
      | none => none
      | some ⟨id, .directory⟩ => promised t pledges id rest
      | some ⟨_, node⟩ => if rest = [] then some node else none)

theorem findSomeSame {α β : Type} {f g : α → Option β} {l : List α}
    (same : ∀ a ∈ l, f a = g a) : l.findSome? f = l.findSome? g := by
  induction l with
  | nil => rfl
  | cons a l ih =>
    rw [List.findSome?_cons, List.findSome?_cons, same a List.mem_cons_self,
      ih fun b member => same b (List.mem_cons_of_mem _ member)]

theorem promisedSpared {t t' : Tree} {hidden : String} {pledges : List Pledge}
    (others : ∀ {loc}, loc.name ≠ hidden → t'.get? loc = t.get? loc) {names : List String}
    (plain : hidden ∉ names) (directory : Nat) :
    t'.promised pledges directory names = t.promised pledges directory names := by
  induction names generalizing directory with
  | nil => rfl
  | cons name rest ih =>
    have other : name ≠ hidden := fun same => plain (same ▸ List.mem_cons_self)
    have further := ih fun member => plain (List.mem_cons_of_mem _ member)
    rw [promised, promised, others other]
    simp only [further]

theorem findSomeOnly {α β : Type} {f : α → Option β} {l : List α} {b : β}
    (only : ∀ a ∈ l, f a = none ∨ f a = some b) (some : ∃ a ∈ l, f a = some b) :
    l.findSome? f = Option.some b := by
  induction l with
  | nil => obtain ⟨a, member, _⟩ := some; cases member
  | cons a l ih =>
    rw [List.findSome?_cons]
    rcases only a List.mem_cons_self with quiet | tells
    · rw [quiet]
      refine ih (fun c member => only c (List.mem_cons_of_mem _ member)) ?_
      obtain ⟨c, member, tells⟩ := some
      rcases List.mem_cons.mp member with rfl | member
      · rw [quiet] at tells
        cases tells
      · exact ⟨c, member, tells⟩
    · rw [tells]

theorem promisedPaved {t : Tree} {loc : Location} {pledges : List Pledge}
    (free : t.get? loc = none) (known : t.Known loc.directory)
    (bases : ∀ g ∈ pledges, t.Known g.base) (taken : ∃ g ∈ pledges, g.Takes loc)
    (solid : ∀ g ∈ pledges, g.base = loc.directory → g.reach = [loc.name] → g.last = .directory)
    {directory : Nat} (stood : t.Known directory) (names : List String) :
    (t.add loc .directory).promised (pledges.map (·.entered loc t.freshId)) directory names =
      t.promised pledges directory names := by
  have old : ∀ g ∈ pledges, g.base ≠ t.freshId := fun g member => knownOld (bases g member)
  induction names generalizing directory with
  | nil => rfl
  | cons name rest ih =>
    rw [promised, promised, List.findSome?_map, getAdd]
    by_cases here : (⟨directory, name⟩ : Location) = loc
    · subst here
      have quiet : ∀ g ∈ pledges, ((fun g : Pledge => g.tells directory (name :: rest)) ∘
          fun g => g.entered ⟨directory, name⟩ t.freshId) g = none :=
        fun g _ => @Pledge.enteredQuiet g _ ⟨directory, name⟩ (knownOld known) rest
      rw [List.findSome?_eq_none_iff.mpr quiet, Option.none_or, if_pos rfl, free]
      simp only
      cases rest with
      | nil =>
        rw [promised, findSomeOnly (b := Node.directory), Option.some_or]
        · intro g member
          by_cases takes : g.Takes ⟨directory, name⟩
          · exact .inr (Pledge.tellsFirst takes (solid g member takes.1))
          · exact .inl (Pledge.tellsOther [] takes)
        · obtain ⟨g, member, takes⟩ := taken
          exact ⟨g, member, Pledge.tellsFirst takes (solid g member takes.1)⟩
      | cons next rest =>
        have nothing : (t.add ⟨directory, name⟩ .directory).get? ⟨t.freshId, next⟩ = none :=
          freshNothing (knownOld known) next
        rw [promised, List.findSome?_map, nothing]
        refine congrArg (Option.or · none) (findSomeSame fun g member => ?_)
        exact Pledge.tellsInside (old g member) ⟨directory, name⟩ next rest
    · rw [if_neg here]
      have same : ∀ g ∈ pledges, ((fun g : Pledge => g.tells directory (name :: rest)) ∘
          fun g => g.entered loc t.freshId) g = g.tells directory (name :: rest) :=
        fun g _ => g.enteredTells (knownOld stood) here rest
      rw [findSomeSame same]
      cases found : t.get? ⟨directory, name⟩ with
      | none => rfl
      | some e =>
        obtain ⟨id, node⟩ := e
        cases node with
        | directory => simp only [ih (.inr ⟨_, found⟩)]
        | _ => rfl

theorem promisedPlaced {t t' : Tree} {hidden : String} {place : Location} {pledges : List Pledge}
    (solid : ∀ id, t.get? place ≠ some ⟨id, .directory⟩)
    (there : ∃ id content mode, t'.get? place = some ⟨id, .file content mode⟩)
    (others : ∀ {loc}, loc.name ≠ hidden → loc ≠ place → t'.get? loc = t.get? loc)
    (pledged : ∃ g ∈ pledges, g.base = place.directory ∧ g.reach = [place.name])
    {names : List String} (plain : hidden ∉ names) (directory : Nat) :
    t'.promised pledges directory names = t.promised pledges directory names := by
  induction names generalizing directory with
  | nil => rfl
  | cons name rest ih =>
    have other : name ≠ hidden := fun same => plain (same ▸ List.mem_cons_self)
    have further := ih fun member => plain (List.mem_cons_of_mem _ member)
    rw [promised, promised]
    by_cases here : (⟨directory, name⟩ : Location) = place
    · subst here
      cases rest with
      | nil =>
        obtain ⟨g, member, base, reach⟩ := pledged
        have leads : g.base = directory ∧ [name] ≠ [] ∧ [name] <+: g.reach :=
          ⟨base, List.cons_ne_nil _ _, reach ▸ List.prefix_refl _⟩
        have tells : (pledges.findSome? (·.tells directory [name])).isSome := by
          rw [List.isSome_findSome?, List.any_eq_true]
          exact ⟨g, member, by rw [Pledge.tells, if_pos leads]; rfl⟩
        obtain ⟨node, first⟩ := Option.isSome_iff_exists.mp tells
        rw [first, Option.some_or, Option.some_or]
      | cons next rest =>
        obtain ⟨id, content, mode, there⟩ := there
        rw [there]
        cases found : t.get? ⟨directory, name⟩ with
        | none => rfl
        | some e =>
          obtain ⟨old, node⟩ := e
          cases node with
          | directory => exact absurd found (solid old)
          | _ => rfl
    · rw [others other here]
      simp only [further]

def Pledge.Kept (t : Tree) (g : Pledge) : Prop :=
  g.reach = [] ∨ ∃ name id content mode, g.reach = [name] ∧ g.last = .file content mode ∧
    t.get? ⟨g.base, name⟩ = some ⟨id, .file content mode⟩

theorem promisedKept {t : Tree} {pledges : List Pledge} (kept : ∀ g ∈ pledges, g.Kept t)
    (directory : Nat) (names : List String) :
    t.promised pledges directory names = t.sight directory names := by
  induction names generalizing directory with
  | nil => rfl
  | cons name rest ih =>
    cases tells : pledges.findSome? (·.tells directory (name :: rest)) with
    | none =>
      rw [promised, tells, Option.none_or, sight]
      simp only [ih]
    | some node =>
      obtain ⟨g, member, told⟩ := List.exists_of_findSome?_eq_some tells
      rw [promised, tells, Option.some_or]
      unfold Pledge.tells at told
      split at told <;> try contradiction
      rename_i leads
      obtain ⟨rfl, -, leads⟩ := leads
      rcases kept g member with ended | ⟨last, id, content, mode, reach, node', there⟩
      · rw [ended] at leads
        cases List.prefix_nil.mp leads
      · rw [reach] at leads told
        obtain ⟨rfl, rest'⟩ := List.cons_prefix_cons.mp leads
        cases List.prefix_nil.mp rest'
        rw [if_pos rfl, node'] at told
        cases told
        rw [sight, there]
        rfl

theorem sightHidden {t : Tree} {hidden : String}
    (nowhere : ∀ {loc e}, t.get? loc = some e → loc.name ≠ hidden) {names : List String}
    (member : hidden ∈ names) (directory : Nat) : t.sight directory names = none := by
  induction names generalizing directory with
  | nil => cases member
  | cons name rest ih =>
    rw [sight]
    cases found : t.get? ⟨directory, name⟩ with
    | none => rfl
    | some e =>
      have other : hidden ≠ name := (nowhere found).symm
      have later := (List.mem_cons.mp member).resolve_left other
      obtain ⟨id, node⟩ := e
      cases node with
      | directory => exact ih later id
      | _ => exact if_neg (List.ne_nil_of_mem later)

end BuildProbe.Tree
