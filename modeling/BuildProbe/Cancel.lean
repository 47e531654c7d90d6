/-!
Cancellation. One handle signals to any number of tokens over a channel that keeps the latest
signal and counts the tokens that can hear it. A signal to nobody is not kept. A waiter holds a
copy of a token and remembers the last state of the channel that it saw: it is told of an unseen
signal even when the handle is gone, and waits for ever when the handle goes without one.
-/
namespace BuildProbe

structure Channel where
  signalled : Bool
  version : Nat
  hasHandle : Bool
  listeners : Nat
  deriving DecidableEq, Repr

namespace Channel

def fresh : Channel := ⟨false, 0, true, 1⟩

def signal (c : Channel) : Channel :=
  if c.hasHandle && c.listeners != 0 then
    { c with signalled := true, version := c.version + 1 }
  else c

def dropHandle (c : Channel) : Channel := { c with hasHandle := false }

def never : Channel := fresh.dropHandle

def join (c : Channel) : Channel := { c with listeners := c.listeners + 1 }

def leave (c : Channel) : Channel := { c with listeners := c.listeners - 1 }

end Channel

inductive Wait where
  | watching (seen : Nat)
  | abandoned
  | finished
  deriving DecidableEq, Repr

inductive Poll where
  | ready
  | pending
  | done
  deriving DecidableEq, Repr

namespace Wait

def look (c : Channel) : Poll × Wait :=
  if c.signalled then (.ready, .finished)
  else if c.hasHandle then (.pending, .watching c.version)
  else (.pending, .abandoned)

def poll (c : Channel) : Wait → Poll × Wait
  | .finished => (.done, .finished)
  | .abandoned => (.pending, .abandoned)
  | .watching seen =>
    if c.version != seen then look c
    else if c.hasHandle then (.pending, .watching seen)
    else (.pending, .abandoned)

end Wait
end BuildProbe
