/-!
A clock that moves on by a fixed step at every reading. Instants are 64-bit words, so it wraps.
-/
namespace BuildProbe

structure Clock where
  now : Int64
  step : Int64
  deriving DecidableEq, Repr

namespace Clock

def read (c : Clock) : Int64 × Clock := (c.now, { c with now := c.now + c.step })

def readings : Nat → Clock → List Int64
  | 0, _ => []
  | n + 1, c => c.read.1 :: readings n c.read.2

end Clock
end BuildProbe
