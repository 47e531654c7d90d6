import BuildProbe.Probe.Supervision
import BuildProbe.Proofs.Text.Malformed
import BuildProbe.Proofs.Text.Rows

/-!
Flags told from the bytes that were captured. Cutting bytes into lines and reading each line is the
same as reading the bytes and cutting the text into lines, and so it is with the mark at the front
of a line: line feeds, carriage returns and the characters of a mark are among those that stand for
bytes of their own. Malformed bytes stay on their line.
-/
namespace BuildProbe

namespace Text

def chompBytes (l : Bytes) : Bytes := if l.getLast? = some 0x0D then l.dropLast else l

/- The pieces between line feeds, without a carriage return directly before one. What follows the
last line feed is a line as it stands, unless it is empty. -/
def byteLines (bytes : Bytes) : List Bytes :=
  let pieces := bytes.splitOn 0x0A
  pieces.dropLast.map chompBytes ++ pieces.getLast?.toList.filter (· ≠ [])

theorem byteLinesPlain {l : Bytes} (plain : 0x0A ∉ l) : byteLines l = [l].filter (· ≠ []) := by
  simp only [byteLines, List.splitOn_eq_singleton plain]
  rfl

theorem byteLinesAppend (before after : Bytes) :
    byteLines (before ++ 0x0A :: after) =
      (before.splitOn 0x0A).map chompBytes ++ byteLines after := by
  have more := List.splitOn_ne_nil 0x0A after
  simp only [byteLines, List.splitOn_append_cons_self, List.dropLast_append_of_ne_nil more,
    List.getLast?_append, List.getLast?_eq_some_getLast more, Option.some_or, List.map_append,
    List.append_assoc]

theorem byteLinesCons {l : Bytes} (plain : 0x0A ∉ l) (rest : Bytes) :
    byteLines (l ++ 0x0A :: rest) = chompBytes l :: byteLines rest := by
  rw [byteLinesAppend, List.splitOn_eq_singleton plain]
  rfl

theorem chompDecoded (l : Bytes) :
    chomp (decode l).toList = (decode (chompBytes l)).toList := by
  by_cases last : l.getLast? = some 0x0D
  · obtain ⟨front, rfl⟩ := List.getLast?_eq_some_iff.mp last
    have read : (decode (front ++ [0x0D])).toList = (decode front).toList ++ ['\r'] :=
      decodeDivided front [] (by decide)
    rw [read, chompReturn, chompBytes, if_pos last, List.dropLast_concat]
  · rw [chompBytes, if_neg last, chompOther]
    intro ends
    obtain ⟨front, read⟩ := List.getLast?_eq_some_iff.mp ends
    obtain ⟨before, after, rfl, _, empty⟩ := decodeOwn (c := '\r') (by decide) read
    rw [decodeEmpty empty, List.getLast?_concat] at last
    exact last rfl

theorem plainDecoded {l : Bytes} (plain : 0x0A ∉ l) : '\n' ∉ (decode l).toList := by
  intro member
  obtain ⟨front, back, read⟩ := List.append_of_mem member
  obtain ⟨before, after, rfl, _⟩ := decodeOwn (c := '\n') (by decide) read
  exact plain (List.mem_append_right _ List.mem_cons_self)

theorem linesDecoded (bytes : Bytes) :
    lines (decode bytes).toList = (byteLines bytes).map fun l => (decode l).toList := by
  induction bytes using pieceInduction (0x0A : UInt8) with
  | last l plain =>
    rw [linesPlain (plainDecoded plain), byteLinesPlain plain, unterminated]
    by_cases empty : l = []
    · subst empty
      rfl
    · rw [if_neg fun nothing => empty (decodeEmpty nothing)]
      simp [empty]
  | piece l rest plain ih =>
    have read : (decode (l ++ 0x0A :: rest)).toList =
        (decode l).toList ++ '\n' :: (decode rest).toList := decodeDivided l rest (by decide)
    rw [read, byteLinesCons plain, linesCons (plainDecoded plain), ih, List.map_cons, chompDecoded]

theorem markDecoded {mark : List Char} (plain : ∀ c ∈ mark, c.toNat < 0x80) {bytes : Bytes}
    {rest : List Char} : (decode bytes).toList = mark ++ rest ↔
      ∃ tail, bytes = mark.map (fun c => UInt8.ofNat c.toNat) ++ tail ∧
        (decode tail).toList = rest := by
  induction mark generalizing bytes with
  | nil => exact ⟨fun read => ⟨bytes, rfl, read⟩, fun ⟨_, same, read⟩ => same ▸ read⟩
  | cons c mark ih =>
    obtain ⟨small, others⟩ := List.forall_mem_cons.mp plain
    constructor
    · intro read
      have first : (decode bytes).toList = [] ++ c :: (mark ++ rest) := read
      obtain ⟨before, after, rfl, empty, later⟩ := decodeOwn small first
      cases decodeEmpty empty
      obtain ⟨tail, rfl, ends⟩ := (ih others).mp later
      exact ⟨tail, rfl, ends⟩
    · rintro ⟨tail, rfl, read⟩
      obtain ⟨below, same⟩ := Decoder.charOwn small
      have first := decodeDivided [] (mark.map (fun c => UInt8.ofNat c.toNat) ++ tail) below
      rw [same, (ih others).mpr ⟨tail, rfl, read⟩] at first
      exact first

end Text

open Text (Bytes decode encode byteLines)

namespace Flag

def ofBytes? (line : Bytes) : Option Flag :=
  if encode directiveMark <+: line then
    some ⟨decode (line.drop (encode directiveMark).length)⟩
  else none

theorem flagDecoded (line : Bytes) : ofLine? (decode line).toList = ofBytes? line := by
  have plain : ∀ c ∈ directiveMark.toList, c.toNat < 0x80 := by
    have all : directiveMark.toList.all (·.toNat < 0x80) = true := by decide +kernel
    simpa using all
  have bytes : directiveMark.toList.map (fun c => UInt8.ofNat c.toNat) = encode directiveMark := by
    decide +kernel
  unfold ofLine? ofBytes?
  split
  · rename_i begins
    obtain ⟨tail, rfl⟩ := begins
    have read := (Text.markDecoded plain).mpr ⟨tail, congrArg (· ++ tail) bytes.symm, rfl⟩
    rw [Text.afterSome.mpr read, List.drop_left]
    simp
  · rename_i apart
    cases found : Text.after? directiveMark.toList (decode line).toList with
    | none => rfl
    | some rest =>
      obtain ⟨tail, same, _⟩ := (Text.markDecoded plain).mp (Text.afterSome.mp found)
      exact absurd ⟨tail, bytes ▸ same.symm⟩ apart

end Flag

namespace Directive

def asked (bytes : Bytes) : List Flag := (byteLines bytes).filterMap Flag.ofBytes?

theorem flagsAsked (bytes : Bytes) : flags (decode bytes) = asked bytes := by
  rw [flags, Text.linesDecoded, List.filterMap_map, asked]
  exact congrArg (List.filterMap · (byteLines bytes)) (funext Flag.flagDecoded)

theorem askedApart (before after : Bytes) :
    asked (before ++ 0x0A :: after) = asked (before ++ [0x0A]) ++ asked after := by
  rw [asked, asked, Text.byteLinesAppend, Text.byteLinesAppend before [], List.filterMap_append,
    List.filterMap_append]
  simp only [asked]
  simp [Text.byteLines]

theorem malformedContained :
    (∀ bytes chars, Text.Lossy bytes chars ↔ chars = (decode bytes).toList) ∧
    (∀ bytes, flags (decode bytes) = asked bytes) ∧
    (∀ s : Story, flags s.stdout = asked (s.captured .out)) ∧
    (∀ before after, flags (decode (before ++ 0x0A :: after)) =
      flags (decode (before ++ [0x0A])) ++ flags (decode after)) ∧
    (∀ before line after, flags (decode (before ++ 0x0A :: (encode line ++ 0x0A :: after))) =
      flags (decode (before ++ [0x0A])) ++ (flags (line ++ "\n") ++ flags (decode after))) ∧
    ∀ value, Flag.ofBytes? (encode (Flag.directiveMark ++ value)) = some ⟨value⟩ := by
  have apart : ∀ before after, flags (decode (before ++ 0x0A :: after)) =
      flags (decode (before ++ [0x0A])) ++ flags (decode after) := by
    intro before after
    simp only [flagsAsked]
    exact askedApart before after
  refine ⟨Text.decodeLossy, flagsAsked, fun s => flagsAsked _, apart,
    fun before line after => ?_, fun value => ?_⟩
  · have text : decode (encode line ++ [0x0A]) = line ++ "\n" := by
      have read := Text.decodeDivided (encode line) [] (b := 0x0A) (by decide)
      rw [Text.decodeEncoded] at read
      rw [← String.toList_inj, String.toList_append]
      exact read
    rw [apart, apart (encode line), text]
  · rw [← Flag.flagDecoded, Text.decodeEncoded, Flag.ofLine?, String.toList_append,
      Text.afterSome.mpr rfl]
    simp

end Directive
end BuildProbe
