import BuildProbe.Flag
/-!
Reading flags one at a time. A cursor holds the text it has not read yet; asking it for a flag
reads lines up to the next directive. Copies of a cursor move independently.
-/
namespace BuildProbe

structure Cursor where
  unread : List Char
  deriving DecidableEq, Repr

namespace Cursor

def ofText (raw : String) : Cursor := ⟨raw.toList⟩

def seek? (cs : List Char) : Option (Flag × List Char) :=
  match _h : Text.firstLine? cs with
  | none => none
  | some (line, rest) =>
    match Flag.ofLine? line with
    | some f => some (f, rest)
    | none => seek? rest
termination_by cs.length
decreasing_by exact Text.firstLineShorter (by assumption)

theorem seekShorter {cs rest : List Char} {f : Flag} (h : seek? cs = some (f, rest)) :
    rest.length < cs.length := by
  fun_induction seek? cs with
  | case1 => simp at h
  | case2 cs line rest' first g hg =>
    simp only [Option.some.injEq, Prod.mk.injEq] at h
    exact h.2 ▸ Text.firstLineShorter first
  | case3 cs line rest' first hg ih =>
    exact Nat.lt_trans (ih h) (Text.firstLineShorter first)

def next (c : Cursor) : Option Flag × Cursor :=
  match seek? c.unread with
  | none => (none, ⟨[]⟩)
  | some (f, rest) => (some f, ⟨rest⟩)

def collect (cs : List Char) (seen : List Flag) : List Flag :=
  match _h : seek? cs with
  | none => seen.reverse
  | some (f, rest) => collect rest (f :: seen)
termination_by cs.length
decreasing_by exact seekShorter (by assumption)

def ahead (c : Cursor) : List Flag := collect c.unread []

def takeOnto : Nat → Cursor → List Flag → List Flag × Cursor
  | 0, c, seen => (seen.reverse, c)
  | n + 1, c, seen =>
    match c.next with
    | (none, c) => (seen.reverse, c)
    | (some f, c) => takeOnto n c (f :: seen)

def take (n : Nat) (c : Cursor) : List Flag × Cursor := takeOnto n c []

def skip (n : Nat) (c : Cursor) : Option Flag × Cursor := (c.take n).2.next

inductive Request where
  | next (i : Nat)
  | copy (i : Nat)
  | rest (i : Nat)
  | take (i n : Nat)
  | skip (i n : Nat)
  | count (i : Nat)
  | last (i : Nat)
  deriving DecidableEq, Repr

inductive Answer where
  | flag (f : Option Flag)
  | flags (fs : List Flag)
  | number (n : Nat)
  deriving DecidableEq, Repr

def among (cursors : List Cursor) (i : Nat) : Cursor := cursors.getD i ⟨[]⟩

def answer (cursors : List Cursor) : Request → Answer × List Cursor
  | .next i =>
    let (f, c) := (among cursors i).next
    (.flag f, cursors.set i c)
  | .copy i => (.number cursors.length, cursors ++ [among cursors i])
  | .rest i => (.flags (among cursors i).ahead, cursors.set i ⟨[]⟩)
  | .take i n =>
    let (fs, c) := (among cursors i).take n
    (.flags fs, cursors.set i c)
  | .skip i n =>
    let (f, c) := (among cursors i).skip n
    (.flag f, cursors.set i c)
  | .count i => (.number (among cursors i).ahead.length, cursors)
  | .last i => (.flag (among cursors i).ahead.getLast?, cursors)

def answers (cursors : List Cursor) : List Request → List Answer
  | [] => []
  | r :: rs =>
    let (a, cursors) := answer cursors r
    a :: answers cursors rs

end Cursor
end BuildProbe
