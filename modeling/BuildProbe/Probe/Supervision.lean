import BuildProbe.Cancel.Timeline
import BuildProbe.Pipeline
import BuildProbe.Probe
import BuildProbe.Tree.Errno
/-!
A started probe under supervision, to its end. Both streams are read until nobody holds them
open. A signal before the start keeps the probe from being started; a signal while it runs makes
it terminate, if need be by force after a grace period; a signal while its streams are still
open gives up on them. All three count as cancelled, however the probe itself ended. The system
may refuse to wait for the probe, to read its streams or to send it a signal, and a probe whose
end has not been seen is killed when it is let go.
-/
namespace BuildProbe

def defaultGrace : Nat := 2000

def stderrTailLines : Nat := 20

def terminateSignal : Nat := 15

def killSignal : Nat := 9

/-- Why the system refuses something to the runner, where it does. -/
structure Mishaps where
  wait : Option String
  read : Stream → Option String
  terminate : Option String
  kill : Option String

def Mishaps.none : Mishaps := ⟨.none, fun _ => .none, .none, .none⟩

/-- A process as the runner deals with it: whether it is there, whether a handler of its own has
noticed a request to terminate, which signals it was sent, and whether its end has been seen. -/
structure Process where
  alive : Bool
  noticed : Bool
  sent : List Nat
  awaited : Bool
  deriving DecidableEq, Repr

namespace Process

def start (s : Story) : Process := ⟨s.hang?.isSome, false, [], false⟩

def send (p : Process) (signal : Nat) : Process := { p with sent := p.sent ++ [signal] }

def reaped (p : Process) : Process := { p with alive := false, awaited := true }

def release (p : Process) (m : Mishaps) : Process :=
  if p.awaited || m.kill.isSome then p else { p.send killSignal with alive := false }

end Process

structure Aftermath where
  alive : Bool
  noticed : Bool
  deriving DecidableEq, Repr

structure Course where
  result : Option (Except ProbeFailure Captured)
  told : List Event
  process : Option Process

def Hang.yields (h : Hang) (grace : Nat) : Bool :=
  match h.leavesAfter with
  | some ms => ms < grace
  | none => false

namespace Story

def stuck? (s : Story) : Option Moment :=
  match s.ending with
  | .hangs _ => some .running
  | _ => if s.late.isSome then some .draining else none

/-! ## Termination -/

def asked (s : Story) (m : Mishaps) : List Event × Process :=
  match m.terminate with
  | some why => ([.terminating, .terminateFailed why], .start s)
  | none =>
    ([.terminating],
      { (Process.start s).send terminateSignal with noticed := s.hang?.any (·.notices) })

def leaves (s : Story) (m : Mishaps) (grace : Nat) : Bool :=
  s.hang?.all fun h => m.terminate.isNone && h.yields grace

def forced (m : Mishaps) (p : Process) : List Event × Process :=
  match m.kill with
  | some why => ([.killing, .killFailed why], p)
  | none => ([.killing], (p.send killSignal).reaped)

/-- A failure to wait for the probe passes for its end. -/
def terminated (s : Story) (m : Mishaps) (grace : Nat) : List Event × Process :=
  let (told, p) := s.asked m
  if m.wait.isSome then (told ++ [.terminated], p)
  else if s.leaves m grace then (told ++ [.terminated], p.reaped)
  else
    let (further, p) := forced m p
    (told ++ further, p)

/-! ## Output -/

def stdout (s : Story) : String := Text.decode (s.captured .out)

def stderr (s : Story) : String := Text.decode (s.captured .err)

def status? (s : Story) : Option Int :=
  match s.ending with
  | .exits status => some status.toNat
  | _ => none

def verdict (s : Story) (program : String) : Except ProbeFailure Captured :=
  if s.status? = some 0 then .ok ⟨s.stdout, s.stderr, 0⟩
  else .error (.nonZeroExit program s.status? (Text.tail s.stderr stderrTailLines))

def stderrEvents (s : Story) (program : String) : List Event :=
  (Text.lines s.stderr.toList).map fun line => .stderrLine program (String.ofList line)

/-- Standard output is read to its end before anything is made of the standard error. -/
def unread? (m : Mishaps) : Option String := (m.read .out).or (m.read .err)

def held (s : Story) (m : Mishaps) : Bool := s.late.isSome && (m.read .out).isNone

/-! ## The course of a probe -/

def waited (s : Story) (m : Mishaps) : Bool := m.wait.isSome || s.hang?.isNone

def course (s : Story) (m : Mishaps) (program : String) (grace : Nat) (timeline : Timeline) :
    Course :=
  let ends (result : Except ProbeFailure Captured) (told : List Event) (p : Process) : Course :=
    ⟨some result, .spawned program :: told, some (p.release m)⟩
  if timeline.heardBy .running && (!s.waited m || timeline.signalFirst .running) then
    let (told, p) := s.terminated m grace
    ends (.error (.cancelled program)) told p
  else match m.wait with
    | some why => ends (.error (.io program why)) [] (.start s)
    | none =>
      if s.hang?.isSome then ⟨none, [.spawned program], some (.start s)⟩
      else
        let p := (Process.start s).reaped
        if timeline.heardBy .draining && (s.held m || timeline.signalFirst .draining) then
          ends (.error (.cancelled program)) [] p
        else match unread? m with
          | some why => ends (.error (.io program why)) [] p
          | none => ends (s.verdict program) (s.stderrEvents program) p

end Story

def Course.of (launched : Except Refusal Story) (m : Mishaps) (program : String) (grace : Nat)
    (timeline : Timeline) : Course :=
  if timeline.heardBy .ahead then ⟨some (.error (.cancelled program)), [], none⟩
  else match launched with
    | .error why => ⟨some (.error (.spawnFailed program why.message)), [], none⟩
    | .ok story => story.course m program grace timeline

end BuildProbe
