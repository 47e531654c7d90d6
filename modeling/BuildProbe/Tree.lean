import BuildProbe.Path
import BuildProbe.Probe
import Std.Data.TreeMap
/-!
A file tree. Every entry has an identity, and a new entry gets one that nothing in the tree has
by then, so that an entry that was replaced can be told from one that was left alone. A
location is a name in a directory, and a directory is known by its identity. The root is always
a directory and is at no location.
-/
namespace BuildProbe

open Text (Bytes)

inductive Content where
  | data (bytes : Bytes)
  | program (program : Program)

def Content.bytes : Content → Bytes
  | .data bytes => bytes
  | .program _ => [0x23, 0x21, 0x0A]

inductive Node where
  | directory
  | file (content : Content) (mode : Nat)
  | link (target : Path)

structure Entry where
  id : Nat
  node : Node

def Entry.isDirectory (e : Entry) : Bool :=
  match e.node with
  | .directory => true
  | _ => false

structure Location where
  directory : Nat
  name : String
  deriving DecidableEq, Repr

structure Tree where
  /-- What is in the directory of an identity. -/
  directories : Std.TreeMap Nat (List (String × Entry))
  /-- The present directory and those above it, without the root. -/
  present : List Nat

namespace Tree

def root : Nat := 0

def names (t : Tree) (directory : Nat) : List (String × Entry) := t.directories.getD directory []

def get? (t : Tree) (loc : Location) : Option Entry :=
  ((t.names loc.directory).find? (·.1 = loc.name)).map (·.2)

def rewrite (t : Tree) (directory : Nat) (names : List (String × Entry)) : Tree :=
  { t with directories := t.directories.insert directory names }

def insert (t : Tree) (loc : Location) (e : Entry) : Tree :=
  t.rewrite loc.directory ((loc.name, e) :: (t.names loc.directory).filter (·.1 ≠ loc.name))

def erase (t : Tree) (loc : Location) : Tree :=
  t.rewrite loc.directory ((t.names loc.directory).filter (·.1 ≠ loc.name))

def identities (t : Tree) : List Nat :=
  t.directories.toList.flatMap fun (id, names) => id :: names.map (·.2.id)

def freshId (t : Tree) : Nat := t.identities.foldr max root + 1

def add (t : Tree) (loc : Location) (node : Node) : Tree := t.insert loc ⟨t.freshId, node⟩

theorem identitySmall {t : Tree} {id : Nat} (known : id ∈ t.identities) : id < t.freshId := by
  have greatest : ∀ ids : List Nat, id ∈ ids → id ≤ ids.foldr max root := by
    intro ids member
    induction ids with
    | nil => simp at member
    | cons m rest ih =>
      simp only [List.foldr_cons]
      rcases List.mem_cons.mp member with rfl | member
      · omega
      · have := ih member; omega
  have := greatest t.identities known
  simp only [freshId]; omega

theorem namesKnown {t : Tree} {directory : Nat} (some : t.names directory ≠ []) :
    (directory, t.names directory) ∈ t.directories.toList := by
  rw [Std.TreeMap.mem_toList_iff_getElem?_eq_some]
  simp only [names, Std.TreeMap.getD_eq_getD_getElem?] at some ⊢
  cases h : t.directories[directory]? with
  | none => simp [h] at some
  | some es => rfl

theorem idFresh {t : Tree} {loc : Location} {e : Entry} (found : t.get? loc = some e) :
    e.id < t.freshId := by
  obtain ⟨x, hx, rfl⟩ := Option.map_eq_some_iff.mp found
  have member := List.mem_of_find?_eq_some hx
  refine identitySmall (List.mem_flatMap.mpr ⟨_, namesKnown (List.ne_nil_of_mem member), ?_⟩)
  exact List.mem_cons_of_mem _ (List.mem_map.mpr ⟨x, member, rfl⟩)

theorem freshEmpty (t : Tree) : t.names t.freshId = [] := by
  by_cases h : t.names t.freshId = []
  · exact h
  · have known : t.freshId ∈ t.identities :=
      List.mem_flatMap.mpr ⟨_, namesKnown h, List.mem_cons_self⟩
    exact absurd (identitySmall known) (Nat.lt_irrefl _)

theorem namesRewrite (t : Tree) (directory other : Nat) (es : List (String × Entry)) :
    (t.rewrite directory es).names other = if other = directory then es else t.names other := by
  simp only [rewrite, names, Std.TreeMap.getD_insert, Nat.compare_eq_eq]
  by_cases h : directory = other <;> simp [h, Ne.symm]

theorem findOther {name other : String} (different : other ≠ name)
    (entries : List (String × Entry)) :
    (entries.filter (·.1 ≠ name)).find? (·.1 = other) = entries.find? (·.1 = other) := by
  induction entries with
  | nil => rfl
  | cons x rest ih =>
    by_cases here : x.1 = name
    · have miss : ¬ x.1 = other := fun h => different (h.symm.trans here)
      simp only [List.filter_cons, here, List.find?_cons]
      simpa [miss, here ▸ miss] using ih
    · by_cases hit : x.1 = other
      · simp [hit, different]
      · simp only [List.filter_cons, List.find?_cons, hit]
        simpa [here, hit] using ih

theorem findSame (name : String) (entries : List (String × Entry)) :
    (entries.filter (·.1 ≠ name)).find? (·.1 = name) = none := by
  simp

theorem getInsert (t : Tree) (loc other : Location) (e : Entry) :
    (t.insert loc e).get? other = if other = loc then some e else t.get? other := by
  obtain ⟨directory, name⟩ := loc
  obtain ⟨directory', name'⟩ := other
  simp only [get?, insert, namesRewrite, Location.mk.injEq]
  by_cases sameDirectory : directory' = directory
  · subst sameDirectory
    by_cases sameName : name' = name
    · simp [sameName]
    · simp only [if_true, sameName, and_false, if_false]
      rw [List.find?_cons_of_neg (by simpa using Ne.symm sameName), findOther sameName]
  · simp [sameDirectory]

theorem getErase (t : Tree) (loc other : Location) :
    (t.erase loc).get? other = if other = loc then none else t.get? other := by
  obtain ⟨directory, name⟩ := loc
  obtain ⟨directory', name'⟩ := other
  simp only [get?, erase, namesRewrite, Location.mk.injEq]
  by_cases sameDirectory : directory' = directory
  · subst sameDirectory
    by_cases sameName : name' = name
    · subst sameName
      simp only [and_self, if_true, findSame, Option.map_none]
    · simp only [if_true, sameName, and_false, if_false, findOther sameName]
  · simp [sameDirectory]

end Tree
end BuildProbe
