/-!
Bytes as text. Decoding never fails: it reads the longest well-formed sequences and puts one
replacement character for every maximal run of bytes that starts a sequence but cannot finish
it, and one for every byte that cannot start one. A decoder holds at most one begun sequence, so
a byte below `0x80` always stands for itself, whatever came before it.
-/
namespace BuildProbe.Text

abbrev Bytes := List UInt8

def encode (s : String) : Bytes := s.toUTF8.data.toList

def replacement : Char := '\uFFFD'

structure Begun where
  bits : Nat
  low : UInt8
  high : UInt8
  after : Nat
  deriving DecidableEq, Repr

def begin? (b : UInt8) : Option Begun :=
  if 0xC2 ≤ b ∧ b ≤ 0xDF then some ⟨b.toNat - 0xC0, 0x80, 0xBF, 0⟩
  else if b = 0xE0 then some ⟨0, 0xA0, 0xBF, 1⟩
  else if b = 0xED then some ⟨0xD, 0x80, 0x9F, 1⟩
  else if 0xE1 ≤ b ∧ b ≤ 0xEF then some ⟨b.toNat - 0xE0, 0x80, 0xBF, 1⟩
  else if b = 0xF0 then some ⟨0, 0x90, 0xBF, 2⟩
  else if 0xF1 ≤ b ∧ b ≤ 0xF3 then some ⟨b.toNat - 0xF0, 0x80, 0xBF, 2⟩
  else if b = 0xF4 then some ⟨4, 0x80, 0x8F, 2⟩
  else none

structure Decoder where
  read : List Char
  begun : Option Begun
  deriving DecidableEq, Repr

namespace Decoder

def start : Decoder := ⟨[], none⟩

def openWith (read : List Char) (b : UInt8) : Decoder :=
  if b < 0x80 then ⟨Char.ofNat b.toNat :: read, none⟩
  else match begin? b with
    | some s => ⟨read, some s⟩
    | none => ⟨replacement :: read, none⟩

def feed (d : Decoder) (b : UInt8) : Decoder :=
  match d.begun with
  | none => openWith d.read b
  | some s =>
    if s.low ≤ b ∧ b ≤ s.high then
      let bits := s.bits * 64 + (b.toNat - 0x80)
      match s.after with
      | 0 => ⟨Char.ofNat bits :: d.read, none⟩
      | n + 1 => ⟨d.read, some ⟨bits, 0x80, 0xBF, n⟩⟩
    else openWith (replacement :: d.read) b

def finish (d : Decoder) : List Char :=
  match d.begun with
  | none => d.read.reverse
  | some _ => (replacement :: d.read).reverse

end Decoder

def decode (bytes : Bytes) : String :=
  String.ofList (bytes.foldl Decoder.feed Decoder.start).finish

end BuildProbe.Text
