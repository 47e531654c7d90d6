import BuildProbe.Artifact
import BuildProbe.Proofs.Text.Rows

/-!
Reading an artifact back. Cut at its line feeds it gives the flags that it was made of, as long
as no value has a line feed of its own, and no other list of such flags has that artifact. A
reader of lines also takes a carriage return away before a line feed, so it reads a value that
ends with one differently. The flags that a probe asks for never have a line feed, and their
values end with a carriage return only where the probe printed two of them, or left its last line
without an end.
-/
namespace BuildProbe

open Text (Row)

namespace Flag

def ofOption? (line : List Char) : Option Flag :=
  (Text.after? optionMark.toList line).map fun v => ⟨String.ofList v⟩

def Plain (f : Flag) : Prop := '\n' ∉ f.value.toList
instance (f : Flag) : Decidable f.Plain := by
  unfold Plain; infer_instance

def Returned (f : Flag) : Prop := f.value.toList.getLast? = some '\r'
instance (f : Flag) : Decidable f.Returned := by
  unfold Returned; infer_instance

theorem displayList (f : Flag) : f.display.toList = optionMark.toList ++ f.value.toList := by
  simp [display]

theorem markPlain : '\n' ∉ optionMark.toList := by decide +kernel

theorem displayPlain (f : Flag) : '\n' ∉ f.display.toList ↔ f.Plain := by
  simp [displayList, Plain, markPlain]

theorem ofOptionSome {line : List Char} {f : Flag} :
    ofOption? line = some f ↔ line = f.display.toList := by
  unfold ofOption?
  rw [Option.map_eq_some_iff, displayList]
  constructor
  · rintro ⟨v, found, rfl⟩
    simpa using Text.afterSome.mp found
  · rintro rfl
    exact ⟨f.value.toList, Text.afterSome.mpr rfl, by simp⟩

theorem displayReturned (f : Flag) : f.display.toList.getLast? = some '\r' ↔ f.Returned := by
  have mark : optionMark.toList.getLast? ≠ some '\r' := by decide +kernel
  rw [displayList, Returned, List.getLast?_append]
  cases last : f.value.toList.getLast? with
  | none => simpa using mark
  | some c => simp

theorem readLine (f : Flag) : ofOption? (Text.chomp f.display.toList) = some f ↔ ¬f.Returned := by
  rw [ofOptionSome, ← displayReturned]
  constructor
  · intro kept last
    obtain ⟨front, same⟩ := List.getLast?_eq_some_iff.mp last
    rw [same, Text.chompReturn] at kept
    simpa using congrArg List.length kept
  · exact Text.chompOther

end Flag

namespace Artifact

theorem renderCons (f : Flag) (fs : List Flag) :
    (render (f :: fs)).toList = f.display.toList ++ '\n' :: (render fs).toList := by
  simp [render]

theorem feedsLeast (flags : List Flag) : flags.length ≤ (render flags).toList.count '\n' := by
  induction flags with
  | nil => exact Nat.zero_le _
  | cons f fs ih =>
    rw [renderCons, List.count_append, List.count_cons_self, List.length_cons]
    omega

theorem feedsExact {flags : List Flag} (plain : ∀ f ∈ flags, f.Plain) :
    (render flags).toList.count '\n' = flags.length := by
  induction flags with
  | nil => rfl
  | cons f fs ih =>
    obtain ⟨first, rest⟩ := List.forall_mem_cons.mp plain
    rw [renderCons, List.count_append, List.count_cons_self, ih rest, List.length_cons,
      List.count_eq_zero.mpr (f.displayPlain.mpr first)]
    omega

theorem feedsPlain {flags : List Flag}
    (few : (render flags).toList.count '\n' ≤ flags.length) : ∀ f ∈ flags, f.Plain := by
  induction flags with
  | nil => exact nofun
  | cons f fs ih =>
    have rest := feedsLeast fs
    rw [renderCons, List.count_append, List.count_cons_self, List.length_cons] at few
    have none : f.display.toList.count '\n' = 0 := by omega
    intro g member
    rcases List.mem_cons.mp member with rfl | later
    · exact g.displayPlain.mp (List.count_eq_zero.mp none)
    · exact ih (by omega) g later

theorem rowsRender {flags : List Flag} (plain : ∀ f ∈ flags, f.Plain) :
    Text.rows (render flags).toList = flags.map fun f => ⟨f.display.toList, true⟩ := by
  induction flags with
  | nil => rfl
  | cons f fs ih =>
    obtain ⟨first, rest⟩ := List.forall_mem_cons.mp plain
    rw [renderCons, Text.rowsCons (f.displayPlain.mpr first), ih rest]
    rfl

theorem cutRender (flags : List Flag) :
    ((render flags).toList.splitOn '\n').getLast? = some [] := by
  induction flags with
  | nil => rfl
  | cons f fs ih =>
    rw [renderCons, List.splitOn_append_cons_self, List.getLast?_append, ih, Option.some_or]

def pieces (flags : List Flag) : List (List Char) :=
  ((render flags).toList.splitOn '\n').dropLast

theorem piecesCut (flags : List Flag) :
    (render flags).toList.splitOn '\n' = pieces flags ++ [[]] := by
  obtain ⟨front, whole⟩ := List.getLast?_eq_some_iff.mp (cutRender flags)
  rw [pieces, whole, List.dropLast_concat]

theorem rowsPieces (flags : List Flag) :
    Text.rows (render flags).toList = (pieces flags).map (⟨·, true⟩) := by
  simp [Text.rows, piecesCut, Text.unterminated]

theorem piecesPlain {flags : List Flag} (plain : ∀ f ∈ flags, f.Plain) :
    pieces flags = flags.map fun f => f.display.toList := by
  have same := (rowsPieces flags).symm.trans (rowsRender plain)
  simpa [Function.comp_def] using congrArg (List.map Row.text) same

theorem linesPieces (flags : List Flag) :
    Text.lines (render flags).toList = (pieces flags).map Text.chomp := by
  rw [Text.linesRows, rowsPieces, List.map_map]
  rfl

theorem piecesFew {flags : List Flag} (count : (pieces flags).length = flags.length) :
    ∀ f ∈ flags, f.Plain := by
  have size := Text.splitLength '\n' (render flags).toList
  rw [piecesCut, List.length_append, List.length_singleton] at size
  exact feedsPlain (by omega)

theorem piecesRead (flags : List Flag) :
    (pieces flags).map Flag.ofOption? = flags.map some ↔ ∀ f ∈ flags, f.Plain := by
  constructor
  · intro read
    exact piecesFew (by simpa using congrArg List.length read)
  · intro plain
    rw [piecesPlain plain, List.map_map]
    exact List.map_congr_left fun f _ => Flag.ofOptionSome.mpr rfl

theorem linesRead (flags : List Flag) :
    (Text.lines (render flags).toList).map Flag.ofOption? = flags.map some ↔
      ∀ f ∈ flags, f.Plain ∧ ¬f.Returned := by
  rw [linesPieces, List.map_map]
  constructor
  · intro read
    have plain := piecesFew (by simpa using congrArg List.length read)
    rw [piecesPlain plain, List.map_map] at read
    intro f member
    exact ⟨plain f member, f.readLine.mp (List.map_inj_left.mp read f member)⟩
  · intro fit
    rw [piecesPlain fun f member => (fit f member).1, List.map_map]
    exact List.map_congr_left fun f member => f.readLine.mpr (fit f member).2

theorem renderInjective {flags others : List Flag} (plain : ∀ f ∈ flags, f.Plain)
    (plain' : ∀ f ∈ others, f.Plain) (same : render flags = render others) : flags = others := by
  have read : flags.map some = others.map some := by
    rw [← (piecesRead flags).mpr plain, ← (piecesRead others).mpr plain', pieces, pieces, same]
  exact (List.map_inj_right fun _ _ => Option.some.inj).mp read

end Artifact

namespace Flag

def ofRow? (r : Row) : Option Flag := ofLine? r.read

theorem flagsRows (raw : String) : Directive.flags raw = (Text.rows raw.toList).filterMap ofRow? := by
  rw [Directive.flags, Text.linesRows, List.filterMap_map]
  rfl

theorem ofRowRead {r : Row} {f : Flag} (asks : ofRow? r = some f) :
    r.read = directiveMark.toList ++ f.value.toList := by
  obtain ⟨v, found, rfl⟩ := Option.map_eq_some_iff.mp asks
  simpa using Text.afterSome.mp found

theorem ofRowPlain {r : Row} {f : Flag} (asks : ofRow? r = some f) (plain : '\n' ∉ r.text) :
    f.Plain := by
  intro feed
  exact Text.readPlain plain (ofRowRead asks ▸ List.mem_append_right _ feed)

theorem ofRowReturned {r : Row} {f : Flag} (asks : ofRow? r = some f) (plain : '\n' ∉ r.text) :
    f.Returned ↔
      ['\r', '\r', '\n'] <:+ r.whole ∨ r.ended = false ∧ r.text.getLast? = some '\r' := by
  have mark : directiveMark.toList.getLast? ≠ some '\r' := by decide +kernel
  have left : f.Returned ↔ r.read.getLast? = some '\r' := by
    rw [ofRowRead asks, Returned, List.getLast?_append]
    cases last : f.value.toList.getLast? with
    | none => simpa using mark
    | some c => simp
  rw [left]
  obtain ⟨text, ended⟩ := r
  cases ended with
  | true =>
    have pair : ['\r', '\r'] ++ ['\n'] <:+ text ++ ['\n'] ↔ ['\r', '\r'] <:+ text := by
      rw [List.suffix_append_inj_of_length_eq rfl]
      exact and_iff_left rfl
    simpa [Row.read, Row.whole] using (Text.chompLast text).trans pair.symm
  | false =>
    have none : ¬['\r', '\r', '\n'] <:+ text := fun suffix => plain (suffix.subset (by simp))
    simp [Row.read, Row.whole, none]

end Flag

theorem Directive.flagsPlain (raw : String) : ∀ f ∈ Directive.flags raw, f.Plain := by
  intro f member
  rw [Flag.flagsRows] at member
  obtain ⟨r, row, asks⟩ := List.mem_filterMap.mp member
  exact Flag.ofRowPlain asks (Text.rowText row)

namespace Artifact

theorem readsBack :
    (∀ flags : List Flag,
      (render flags).toList.splitOn '\n' = pieces flags ++ [[]] ∧
      ((pieces flags).map Flag.ofOption? = flags.map some ↔ ∀ f ∈ flags, f.Plain) ∧
      ((Text.lines (render flags).toList).map Flag.ofOption? = flags.map some ↔
        ∀ f ∈ flags, f.Plain ∧ ¬f.Returned)) ∧
    (∀ flags others : List Flag, (∀ f ∈ flags, f.Plain) → (∀ f ∈ others, f.Plain) →
      render flags = render others → flags = others) ∧
    ∀ raw : String,
      (∀ f ∈ Directive.flags raw, f.Plain) ∧
      pieces (Directive.flags raw) = (Directive.flags raw).map (fun f => f.display.toList) ∧
      Directive.flags raw = (Text.rows raw.toList).filterMap Flag.ofRow? ∧
      ∀ r ∈ Text.rows raw.toList, ∀ f, Flag.ofRow? r = some f →
        (f.Returned ↔
          ['\r', '\r', '\n'] <:+ r.whole ∨ r.ended = false ∧ r.text.getLast? = some '\r') := by
  refine ⟨?_, ?_, ?_⟩
  · intro flags
    exact ⟨piecesCut flags, piecesRead flags, linesRead flags⟩
  · intro flags others plain plain' same
    exact renderInjective plain plain' same
  · intro raw
    have plain : ∀ f ∈ Directive.flags raw, f.Plain := by
      intro f member
      rw [Flag.flagsRows] at member
      obtain ⟨r, row, asks⟩ := List.mem_filterMap.mp member
      exact Flag.ofRowPlain asks (Text.rowText row)
    refine ⟨plain, piecesPlain plain, Flag.flagsRows raw, ?_⟩
    intro r row f asks
    exact Flag.ofRowReturned asks (Text.rowText row)

theorem returnedRead :
    let flags : List Flag := [⟨"x\r"⟩]
    Directive.flags "cargo:rustc-cfg=x\r\r\n" = flags ∧
      (pieces flags).map Flag.ofOption? = flags.map some ∧
      (Text.lines (render flags).toList).map Flag.ofOption? ≠ flags.map some := by
  intro flags
  have plain : ∀ f ∈ flags, f.Plain := by decide +kernel
  obtain ⟨_, cut, read⟩ := readsBack.1 flags
  refine ⟨by decide +kernel, cut.mpr plain, fun same => ?_⟩
  exact (read.mp same _ (List.mem_singleton.mpr rfl)).2 (by decide +kernel)

end Artifact
end BuildProbe
