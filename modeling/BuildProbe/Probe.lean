import BuildProbe.Environment
import BuildProbe.Text.Bytes
/-!
Probes as programs. A program sees its environment, how many arguments it was given and how many
bytes of input; what it then does is a story: the writes to its two streams in order, what a
process it leaves behind still writes to them, and how it ends. A script is a program described by
data.
-/
namespace BuildProbe

open Text (Bytes)

inductive Stream where
  | out
  | err
  deriving DecidableEq, Repr

structure Chunk where
  stream : Stream
  bytes : Bytes
  deriving DecidableEq, Repr

def Chunk.gather (stream : Stream) (chunks : List Chunk) : Bytes :=
  chunks.flatMap fun c => if c.stream = stream then c.bytes else []

/-- How a hanging process takes a request to terminate: whether a handler of its own notices it,
and after how many milliseconds the process is gone, if ever. -/
structure Hang where
  notices : Bool
  leavesAfter : Option Nat
  deriving DecidableEq, Repr

inductive Ending where
  | exits (status : UInt8)
  | dies (signal : Nat)
  | hangs (hang : Hang)
  deriving DecidableEq, Repr

structure Story where
  writes : List Chunk
  /-- What a process left behind writes before it closes the streams. -/
  late : Option (List Chunk)
  ending : Ending
  deriving DecidableEq, Repr

namespace Story

def captured (s : Story) (stream : Stream) : Bytes :=
  Chunk.gather stream s.writes ++ Chunk.gather stream (s.late.getD [])

def hang? (s : Story) : Option Hang :=
  match s.ending with
  | .hangs h => some h
  | _ => none

end Story

structure Program where
  drains : Bool
  story : (environment : Environment) → (arguments input : Nat) → Story

structure Script where
  out : Bytes
  err : Bytes
  errFirst : Bool
  asks : List String
  inputs : Bool
  late : Option (Bytes × Bytes)
  ending : Ending
  deriving DecidableEq, Repr

namespace Script

def reply (environment : Environment) (name : String) : Bytes :=
  Text.encode <| match environment.seen? name with
    | some value => "cargo:rustc-cfg=" ++ name ++ "=\"" ++ value ++ "\"\n"
    | none => "cargo:rustc-cfg=no_" ++ name ++ "\n"

def inputReply (arguments input : Nat) : Bytes :=
  Text.encode ("cargo:rustc-cfg=args=" ++ toString arguments
    ++ "\ncargo:rustc-cfg=stdin=" ++ toString input ++ "\n")

def story (s : Script) (environment : Environment) (arguments input : Nat) : Story :=
  let own := if s.errFirst then [Chunk.mk .err s.err, ⟨.out, s.out⟩]
    else [⟨.out, s.out⟩, ⟨.err, s.err⟩]
  let replies := s.asks.map fun name => ⟨.out, reply environment name⟩
  let inputs := if s.inputs then [⟨.out, inputReply arguments input⟩] else []
  { writes := own ++ replies ++ inputs
    late := s.late.map fun (out, err) => [⟨.out, out⟩, ⟨.err, err⟩]
    ending := s.ending }

def program (s : Script) : Program := ⟨s.inputs, s.story⟩

end Script
end BuildProbe
