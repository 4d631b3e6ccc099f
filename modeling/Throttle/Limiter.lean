/-!
A cap on the number of requests in flight.

The count is a 64-bit word. Best effort reads the count, compares it, and then adds one; strict
updates the count only where it is below the cap. A guard stands for one unit and gives it back when
it is dropped.
-/

namespace Throttle

inductive LimiterMode where
  | bestEffort
  | strict
  deriving DecidableEq, Repr

structure Limiter where
  max : UInt64
  inFlight : UInt64
  mode : LimiterMode
  deriving DecidableEq, Repr

namespace Limiter

def create (max : UInt64) (mode : LimiterMode) : Limiter := ⟨max, 0, mode⟩

/-- The word one up, unless it has reached the cap. -/
def incrementBelow (max n : UInt64) : Option UInt64 := if n < max then some (n + 1) else none

/-- Take one unit, or nothing when the cap is reached. -/
def acquire? (l : Limiter) : Option Limiter :=
  match l.mode with
  | .bestEffort => if l.inFlight ≥ l.max then none else some { l with inFlight := l.inFlight + 1 }
  | .strict => (incrementBelow l.max l.inFlight).map fun n => { l with inFlight := n }

/-- Give one unit back. -/
def release (l : Limiter) : Limiter := { l with inFlight := l.inFlight - 1 }

end Limiter

def LimiterMode.describe : LimiterMode → String
  | .bestEffort => "BestEffort"
  | .strict => "Strict"

def Limiter.describe (l : Limiter) : String :=
  "GlobalLimiter \x7b max: " ++ toString l.max.toNat ++ ", in_flight: " ++ toString l.inFlight.toNat
    ++ ", mode: " ++ l.mode.describe ++ " \x7d"

/-- The text of a guard, which shows the limiter it holds a unit of. -/
def Limiter.describeGuard (l : Limiter) : String :=
  "InFlightGuard \x7b limiter: " ++ l.describe ++ " \x7d"

end Throttle
