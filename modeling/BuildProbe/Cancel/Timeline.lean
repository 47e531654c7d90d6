import BuildProbe.Cancel
/-!
When, in the course of a run, its handle signals or is dropped. A run passes six moments in one
order: before its start, while the probe runs, while the probe's streams are still open after its
end, after the probe's answer and before the run looks at the signal, after that look, and while
the artifact is written. Whoever looks at a moment finds the channel as all acts up to then have
left it.
-/
namespace BuildProbe

inductive Moment where
  | ahead
  | running
  | draining
  | returned
  | checked
  | writing
  deriving DecidableEq, Repr

namespace Moment

def upTo : Moment → List Moment
  | ahead => [ahead]
  | running => [ahead, running]
  | draining => [ahead, running, draining]
  | returned => [ahead, running, draining, returned]
  | checked => [ahead, running, draining, returned, checked]
  | writing => [ahead, running, draining, returned, checked, writing]

end Moment

inductive Act where
  | signal
  | drop
  deriving DecidableEq, Repr

def Channel.act (c : Channel) : Act → Channel
  | .signal => c.signal
  | .drop => c.dropHandle

structure Timeline where
  acts : Moment → List Act
  /-- Whether, at a moment, a signal is noticed rather than an end that came no later. -/
  signalFirst : Moment → Bool

namespace Timeline

def quiet : Timeline := ⟨fun _ => [], fun _ => true⟩

def single (m : Moment) (a : Act) : Timeline := ⟨fun n => if n = m then [a] else [], fun _ => true⟩

def channel (t : Timeline) (m : Moment) : Channel :=
  (m.upTo.flatMap t.acts).foldl Channel.act .fresh

def heardBy (t : Timeline) (m : Moment) : Bool := (t.channel m).signalled

end Timeline

inductive Plan where
  | never
  | before (a : Act)
  | whenBlocked (a : Act)
  deriving DecidableEq, Repr

def Plan.timeline : Plan → (stuck : Option Moment) → Timeline
  | .before a, _ => .single .ahead a
  | .whenBlocked a, some m => .single m a
  | _, _ => .quiet

end BuildProbe
