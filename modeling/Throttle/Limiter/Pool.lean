import Throttle.Limiter

/-!
A limiter together with the guards it has handed out and not yet got back.

Guards are numbered in the order in which they are acquired. A failed attempt uses no number, and a
guard that is dropped at once uses none either.
-/

namespace Throttle

structure GuardPool where
  limiter : Limiter
  held : List Nat
  issued : Nat
  deriving DecidableEq, Repr

namespace GuardPool

def create (max : UInt64) (mode : LimiterMode) : GuardPool := ⟨.create max mode, [], 0⟩

/-- Acquire a guard and keep it under the next number. -/
def acquire (p : GuardPool) : GuardPool × Option Nat :=
  match p.limiter.acquire? with
  | some limiter => (⟨limiter, p.held ++ [p.issued], p.issued + 1⟩, some p.issued)
  | none => (p, none)

/-- Acquire a guard and drop it at once. -/
def probe (p : GuardPool) : GuardPool × Bool :=
  match p.limiter.acquire? with
  | some limiter => ({ p with limiter := limiter.release }, true)
  | none => (p, false)

/-- Drop one guard, if it is held. -/
def release (p : GuardPool) (id : Nat) : GuardPool × Bool :=
  if id ∈ p.held then ({ p with limiter := p.limiter.release, held := p.held.erase id }, true)
  else (p, false)

/-- Drop every guard, and count them. -/
def releaseAll (p : GuardPool) : GuardPool × Nat :=
  ({ p with limiter := p.held.foldl (fun l _ => l.release) p.limiter, held := [] }, p.held.length)

/-! ## Runs of operations -/

inductive Command where
  | acquire
  | probe
  | release (id : Nat)
  | releaseAll
  deriving DecidableEq, Repr

inductive Answer where
  | guard (id : Option Nat)
  | success (b : Bool)
  | count (n : Nat)
  deriving DecidableEq, Repr

def step (p : GuardPool) : Command → GuardPool × Answer
  | .acquire => let (p, id) := p.acquire; (p, .guard id)
  | .probe => let (p, b) := p.probe; (p, .success b)
  | .release id => let (p, b) := p.release id; (p, .success b)
  | .releaseAll => let (p, n) := p.releaseAll; (p, .count n)

def run (p : GuardPool) : List Command → GuardPool × List Answer
  | [] => (p, [])
  | command :: rest =>
      let (p, answer) := p.step command
      let (p, answers) := p.run rest
      (p, answer :: answers)

end GuardPool

end Throttle
