import Throttle.Ring

/-!
Slots of a window: one deadline ring per slot, the keys bound to slots, and a stack of free slots.

Every index of `rings` is either bound to one key or listed once in `free`. A slot on the stack has
an empty ring, so a freshly bound key always finds room. `deadlines` is the view by key: the
deadlines in the ring of its slot, or none. The bindings are kept in some order; which one is of no
consequence to any key.
-/

namespace Throttle

structure Slots (κ : Type) where
  rings : Array Ring
  bound : List (κ × Nat)
  free : List Nat
  deriving DecidableEq, Repr

/-- Counts of all slots, of those bound to a key, and of those waiting. -/
structure Occupancy where
  slots : Nat
  bound : Nat
  free : Nat
  deriving DecidableEq, Repr

namespace Slots

variable {κ : Type}

/-- `estimated` free slots, the first of them on top of the stack. -/
def ofEstimate (estimated allowance : Nat) : Slots κ :=
  ⟨.replicate estimated (.ofCapacity allowance), [], List.range estimated⟩

def occupancy (s : Slots κ) : Occupancy := ⟨s.rings.size, s.bound.length, s.free.length⟩

def keys (s : Slots κ) : List κ := s.bound.map (·.1)

def ring (s : Slots κ) (i : Nat) : Ring := s.rings[i]?.getD (.ofCapacity 0)

def setRing (s : Slots κ) (i : Nat) (q : Ring) : Slots κ :=
  { s with rings := s.rings.setIfInBounds i q }

/-- A free slot, off the top of the stack or made anew. -/
def takeSlot (s : Slots κ) (allowance : Nat) : Nat × Slots κ :=
  match s.free with
  | i :: free => (i, { s with free })
  | [] => (s.rings.size, { s with rings := s.rings.push (.ofCapacity allowance) })

/-- Bind a key that has no slot, and record its first deadline. -/
def bind (s : Slots κ) (allowance : Nat) (k : κ) (deadline : Int) : Slots κ :=
  let (i, s) := s.takeSlot allowance
  let s := { s with bound := s.bound ++ [(k, i)] }
  match (s.ring i).push deadline with
  | .ok q => s.setRing i q
  | .error _ => s

section Keyed

variable [DecidableEq κ]

def slotOf? (s : Slots κ) (k : κ) : Option Nat := s.bound.lookup k

def deadlines (s : Slots κ) (k : κ) : List Int :=
  match s.slotOf? k with
  | some i => (s.ring i).toList
  | none => []

/-- Give the slot of a key back to the stack. -/
def release (s : Slots κ) (k : κ) (i : Nat) : Slots κ :=
  { s with bound := s.bound.filter (·.1 ≠ k), free := i :: s.free }

end Keyed

/-- Drop the expired deadlines of every ring, and give back the slots that drained. -/
def expire (s : Slots κ) (now : Int) : Slots κ :=
  let s : Slots κ := { s with rings := s.rings.map fun q => (q.dropExpired now).2 }
  let (drained, live) := s.bound.partition fun (_, i) => (s.ring i).isEmpty
  { s with bound := live, free := (drained.map (·.2)).reverse ++ s.free }

/-- After a spike most slots stand free: far above the estimate, and over twice those in use. -/
def isSparse (s : Slots κ) (estimated : Nat) : Bool :=
  2 * estimated ≤ s.rings.size && s.bound.length * 2 < s.free.length

/-- Move the bound rings to the front, renumber their keys, and refill up to the estimate. -/
def compact (s : Slots κ) (estimated allowance : Nat) : Slots κ :=
  let live := s.bound.length
  let spare := max live estimated - live
  { rings :=
      (s.bound.map fun (_, i) => s.ring i).toArray ++ .replicate spare (.ofCapacity allowance)
    bound := s.bound.zipIdx.map fun ((k, _), i) => (k, i)
    free := (List.range' live spare).reverse }

def sweep (s : Slots κ) (estimated allowance : Nat) (now : Int) : Slots κ :=
  let s := s.expire now
  if s.isSparse estimated then s.compact estimated allowance else s

end Slots

end Throttle
