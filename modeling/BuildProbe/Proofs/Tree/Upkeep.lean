import BuildProbe.Proofs.Path.Leading
import BuildProbe.Proofs.Tree.Crossing
import BuildProbe.Proofs.Tree.Landing

/-!
What is kept up while a path is written to. A name that no link speaks of can come and go without
a walk that notices. A directory that is made on the way of a path leaves the path with nothing at
its end, as it was, and no directory gets a second place.
-/
namespace BuildProbe

open Text (Bytes)

namespace Tree

theorem chainKept {t t' : Tree}
    (kept : ∀ {loc id}, t.get? loc = some ⟨id, .directory⟩ → t'.get? loc = some ⟨id, .directory⟩)
    {way : List Nat} (chain : t.Chain way) : t'.Chain way := by
  induction way with
  | nil => trivial
  | cons id way ih =>
    obtain ⟨⟨name, found⟩, chain⟩ := chain
    exact ⟨⟨name, kept found⟩, ih chain⟩

theorem chainKnown {t : Tree} {way : List Nat} (chain : t.Chain way) : ∀ id ∈ way, t.Known id := by
  induction way with
  | nil => simp
  | cons first way ih =>
    obtain ⟨⟨name, found⟩, chain⟩ := chain
    intro id member
    rcases List.mem_cons.mp member with rfl | member
    · exact .inr ⟨_, found⟩
    · exact ih chain id member

theorem soundAlike {t t' : Tree} (sound : t.Sound) (present : t'.present = t.present)
    (kept : ∀ {loc id}, t.get? loc = some ⟨id, .directory⟩ → t'.get? loc = some ⟨id, .directory⟩)
    (known : ∀ {loc id}, t'.get? loc = some ⟨id, .directory⟩ → t.get? loc = some ⟨id, .directory⟩) :
    t'.Sound := by
  refine ⟨fun found found' => sound.single (known found) (known found'),
    fun found => sound.top (known found), ?_⟩
  rw [present]
  exact chainKept kept sound.present

theorem soundAdd {t : Tree} (sound : t.Sound) {loc : Location} (free : t.get? loc = none) :
    (t.add loc .directory).Sound := by
  have cases : ∀ {other id}, (t.add loc .directory).get? other = some ⟨id, .directory⟩ →
      other = loc ∧ id = t.freshId ∨ t.get? other = some ⟨id, .directory⟩ ∧ id < t.freshId := by
    intro other id found
    rw [getAdd] at found
    split at found
    · rename_i own
      cases found
      exact .inl ⟨own, rfl⟩
    · exact .inr ⟨found, idFresh found⟩
  refine ⟨?_, ?_, chainKept (growsAdd free _).kept sound.present⟩
  · intro one other id found found'
    rcases cases found with ⟨own, new⟩ | ⟨old, small⟩
    · rcases cases found' with ⟨own', _⟩ | ⟨_, small'⟩
      · exact own.trans own'.symm
      · omega
    · rcases cases found' with ⟨_, new'⟩ | ⟨old', _⟩
      · omega
      · exact sound.single old old'
  · intro one found
    rcases cases found with ⟨_, new⟩ | ⟨old, _⟩
    · simp only [root, freshId] at new; omega
    · exact sound.top old

def Unheard (t : Tree) (name : String) : Prop :=
  ∀ {loc id target}, t.get? loc = some ⟨id, .link target⟩ → name ∉ target.pieces

section

variable {t t' : Tree} {name : String} {p : Path}

theorem walkUnheard (others : ∀ {loc}, loc.name ≠ name → t'.get? loc = t.get? loc)
    (unheard : t.Unheard name) {follow : Bool} {links : Nat} {way : List Nat}
    {pieces : List String} (strange : name ∉ pieces) :
    t'.walk follow links way pieces = t.walk follow links way pieces := by
  have same : ∀ {directory piece}, name ≠ piece →
      t'.get? ⟨directory, piece⟩ = t.get? ⟨directory, piece⟩ := fun apart => others (Ne.symm apart)
  fun_induction walk t follow links way pieces with
  | case1 => rw [walk]
  | case11 way piece rest filled up long id target here final links ih =>
    have apart : name ∉ target.pieces ++ rest := by
      simp [unheard here, List.not_mem_of_not_mem_cons strange]
    rw [walk, if_neg filled, if_neg up, if_neg long, same (List.ne_of_not_mem_cons strange), here]
    simp only [if_neg final]
    exact ih apart
  | _ =>
    rw [walk]
    simp_all

theorem readUnheard (present : t'.present = t.present)
    (others : ∀ {loc}, loc.name ≠ name → t'.get? loc = t.get? loc) (unheard : t.Unheard name)
    (strange : name ∉ p.pieces) : t'.read p = t.read p := by
  have base : t'.base p = t.base p := by simp only [Tree.base, present]
  simp only [read, stat, entry, resolve, base, walkUnheard others unheard strange]

theorem splitPieces (pieces : List String) : (splitLast pieces).1 ⊆ pieces := by
  intro name member
  unfold splitLast at member
  split at member
  · cases member
  · rename_i last before found
    have suffix := List.dropWhile_suffix (l := pieces.reverse) (· = "")
    rw [found] at suffix
    exact List.mem_reverse.mp (suffix.subset (List.mem_cons_of_mem _ (List.mem_reverse.mp member)))

theorem slotUnheard (present : t'.present = t.present)
    (others : ∀ {loc}, loc.name ≠ name → t'.get? loc = t.get? loc) (unheard : t.Unheard name)
    (strange : name ∉ p.pieces) : t'.slot p = t.slot p := by
  have base : t'.base p = t.base p := by simp only [Tree.base, present]
  have before : name ∉ (splitLast p.pieces).1 := fun member => strange (splitPieces _ member)
  simp only [slot, base, walkUnheard others unheard before]

/- A path that no call refuses for its text. -/
structure Fits (p : Path) : Prop where
  plain : p.hasNul = false
  fit : unfit? p = none
  short : ∀ name ∈ p.pieces, nameTooLong name = false

theorem walkShort {follow : Bool} {links : Nat} {way : List Nat} {pieces : List String}
    {goal : Goal} (led : t.walk follow links way pieces = .ok goal) {piece : String}
    (member : piece ∈ pieces) (proper : piece ≠ "" ∧ piece ≠ "." ∧ piece ≠ "..") :
    nameTooLong piece = false := by
  fun_induction walk t follow links way pieces with
  | case1 => cases member
  | case2 links way first rest skip ih =>
    rcases List.mem_cons.mp member with rfl | later
    · rcases skip with rfl | rfl
      · exact absurd rfl proper.1
      · exact absurd rfl proper.2.1
    · exact ih led later
  | case3 links way rest filled ih =>
    rcases List.mem_cons.mp member with rfl | later
    · exact absurd rfl proper.2.2
    · exact ih led later
  | case6 links way first rest filled up long id here ih =>
    rcases List.mem_cons.mp member with rfl | later
    · simpa using long
    · exact ih led later
  | case7 links way first filled up long id content mode here =>
    cases List.mem_singleton.mp member
    simpa using long
  | case9 links way first rest filled up long id target here final =>
    rw [final.1] at member
    cases List.mem_singleton.mp member
    simpa using long
  | case11 way first rest filled up long id target here final links ih =>
    rcases List.mem_cons.mp member with rfl | later
    · simpa using long
    · exact ih led (List.mem_append_right _ later)
  | _ => cases led

theorem readFits (proper : p.Proper) {bytes : Bytes} (ends : t.read p = .ok bytes) : Fits p := by
  obtain ⟨plain, fit, loc, e, led⟩ := readEnd ends
  exact ⟨plain, fit, fun name member => walkShort led member (proper.names name member)⟩

theorem slotFits (proper : p.Proper) {loc : Location} (plain : p.hasNul = false)
    (place : t.slot p = .ok ⟨loc.directory, .name loc.name, false⟩)
    (short : nameTooLong loc.name = false) : Fits p := by
  obtain ⟨fit, way, walked, _⟩ := slotInside place
  obtain ⟨_, pieces⟩ := slotBare place
  refine ⟨plain, fit, fun name member => ?_⟩
  rw [pieces] at member
  rcases List.mem_append.mp member with before | last
  · exact walkShort walked before (proper.names name (splitPieces _ before))
  · exact List.mem_singleton.mp last ▸ short

theorem mkdirOnWay {part : Path} (leads : part.Leads p) (made : t.mkdir part = .ok t') :
    ∃ loc, t.get? loc = none ∧ loc.name ∈ p.pieces ∧ t' = t.add loc .directory := by
  obtain ⟨loc, located, free, same⟩ := mkdirMade made
  obtain ⟨slashed, place⟩ := locateSlot located
  obtain ⟨_, k, pieces⟩ := splitLastName (slotName place)
  obtain ⟨n, _, rfl⟩ := leads
  refine ⟨loc, free, List.mem_of_mem_take (i := n) ?_, same⟩
  rw [show p.pieces.take n = _ from pieces]
  exact List.mem_append_right _ List.mem_cons_self

theorem leadingLast (proper : p.Proper) {part : Path} (leads : part.Leads p) {last : String}
    (named : (splitLast part.pieces).2 = .name last) :
    part.absolute = p.absolute ∧
      ∃ next more, p.pieces = (splitLast part.pieces).1 ++ last :: next :: more := by
  obtain ⟨n, short, rfl⟩ := leads
  obtain ⟨_, k, pieces⟩ := splitLastName named
  have absolute : (⟨p.absolute, p.pieces.take n⟩ : Path).absolute = p.absolute := rfl
  simp only at pieces
  have ends : k = 0 := by
    cases k with
    | zero => rfl
    | succ k =>
      have blank : "" ∈ p.pieces.take n := by
        rw [pieces]
        simp [List.replicate_succ]
      exact absurd rfl (proper.names "" (List.mem_of_mem_take blank)).1
  subst ends
  obtain ⟨next, more, rest⟩ : ∃ next more, p.pieces.drop n = next :: more :=
    List.exists_cons_of_ne_nil (by simpa using short)
  have whole := List.take_append_drop n p.pieces
  rw [rest, pieces, List.replicate_zero, List.append_assoc] at whole
  exact ⟨absolute, next, more, whole.symm⟩

theorem readPaved (sound : t.Sound) (proper : p.Proper) (fits : Fits p) {part : Path}
    (leads : part.Leads p) (made : t.mkdir part = .ok t') :
    t'.read p = .error (.system .notFound) := by
  obtain ⟨loc, located, free, rfl⟩ := mkdirMade made
  obtain ⟨slashed, place⟩ := locateSlot located
  obtain ⟨_, way, walked, same⟩ := slotInside place
  obtain ⟨stands, last, _⟩ := Slot.mk.injEq .. ▸ same
  obtain ⟨absolute, next, more, pieces⟩ := leadingLast proper leads last.symm
  have base : t.base part = t.base p := by simp only [Tree.base, absolute]
  rw [base] at walked
  have inside : loc.name ∈ p.pieces ∧ next ∈ p.pieces := by simp [pieces]
  have empty : ∀ links, (t.add loc .directory).walk true links way (loc.name :: next :: more) =
      .error .notFound := by
    intro links
    obtain ⟨filled, stay, up⟩ := proper.names _ inside.1
    obtain ⟨filled', stay', up'⟩ := proper.names _ inside.2
    have here : (t.add loc .directory).get? ⟨standing way, loc.name⟩ =
        some ⟨t.freshId, .directory⟩ := by
      rw [getAdd, if_pos (by rw [← stands])]
    have other : (⟨t.freshId, next⟩ : Location) ≠ loc := by
      rintro rfl
      have known := chainKnown (walkChain (baseChain sound p) walked)
      exact knownOld (standingKnown known) stands.symm
    have nothing : (t.add loc .directory).get? ⟨t.freshId, next⟩ = none := by
      rw [getAdd, if_neg other]
      simp [get?, freshEmpty]
    rw [walk, if_neg (by simp [filled, stay]), if_neg up, if_neg (by simp [fits.short _ inside.1]),
      here]
    simp only
    rw [walk, if_neg (by simp [filled', stay']), if_neg up',
      if_neg (by simp [fits.short _ inside.2]),
      show standing (t.freshId :: way) = t.freshId from rfl, nothing]
  have still : (t.add loc .directory).walk true linkLimit (t.base p) (splitLast part.pieces).1 =
      .ok (.inside way) := by
    rw [walkGrows (growsAdd free _) (by rw [walked]; rintro ⟨⟩), walked]
  have led : (t.add loc .directory).resolve true p = .error .notFound := by
    rw [resolve, fits.fit, pieces]
    exact walkThrough (List.cons_ne_nil _ _) still empty
  simp only [read, stat, withPath, entry, fits.plain, led]
  rfl

end

end Tree
end BuildProbe
