/-!
A bounded queue of deadlines in a circular buffer.

The buffer has one cell more than the queue may hold, so `head = tail` means empty and a tail one
step behind the head means full. Cells outside the occupied stretch keep stale values, and no
operation reads them. `Ring.toList` is the view: the occupied stretch from the earliest entry to
the latest.
-/

namespace Throttle

structure Ring where
  buffer : Array Int
  head : Nat
  tail : Nat
  deriving DecidableEq, Repr

namespace Ring

inductive Error where
  | full
  | empty
  deriving DecidableEq, Repr

def Error.message : Error → String
  | .full => "queue is full"
  | .empty => "queue is empty"

/-- An empty queue able to hold `capacity` deadlines. -/
def ofCapacity (capacity : Nat) : Ring := ⟨.replicate (capacity + 1) 0, 0, 0⟩

def cells (q : Ring) : Nat := q.buffer.size

def capacity (q : Ring) : Nat := q.cells - 1

def isEmpty (q : Ring) : Bool := q.head == q.tail

def isFull (q : Ring) : Bool := (q.tail + 1) % q.cells == q.head

/-- The deadline in a cell; both ends of a well-formed ring lie within its buffer. -/
def cell (q : Ring) (i : Nat) : Int := q.buffer[i]?.getD 0

def size (q : Ring) : Nat := (q.tail + q.cells - q.head) % q.cells

def room (q : Ring) : Nat := q.capacity - q.size

def toList (q : Ring) : List Int := (List.range q.size).map fun i => q.cell ((q.head + i) % q.cells)

def push (q : Ring) (deadline : Int) : Except Error Ring :=
  if q.isFull then .error .full
  else .ok ⟨q.buffer.setIfInBounds q.tail deadline, q.head, (q.tail + 1) % q.cells⟩

/-- Take the earliest deadline. -/
def pop (q : Ring) : Except Error (Int × Ring) :=
  if q.isEmpty then .error .empty
  else .ok (q.cell q.head, { q with head := (q.head + 1) % q.cells })

/-- Take the latest deadline. -/
def popLast (q : Ring) : Except Error (Int × Ring) :=
  if q.isEmpty then .error .empty
  else
    let tail := (q.tail + q.cells - 1) % q.cells
    .ok (q.cell tail, { q with tail })

def peek (q : Ring) : Option Int := if q.isEmpty then none else some (q.cell q.head)

/-- Pop while the earliest deadline has passed, at most `limit` times, and count. -/
def popExpired (now : Int) : Nat → Ring → Nat × Ring
  | 0, q => (0, q)
  | limit + 1, q =>
      match q.peek with
      | none => (0, q)
      | some deadline =>
          if deadline < now then
            match q.pop with
            | .ok (_, q') => let (count, q'') := popExpired now limit q'; (count + 1, q'')
            | .error _ => (0, q)
          else (0, q)

/-- Remove the leading deadlines strictly before `now`; a deadline equal to `now` is still live. -/
def dropExpired (q : Ring) (now : Int) : Nat × Ring := popExpired now q.size q

/-! ## Runs of operations -/

inductive Command where
  | push (deadline : Int)
  | pop
  | popLast
  | peek
  | prune (now : Int)
  | capacity
  deriving DecidableEq, Repr

inductive Answer where
  | done
  | failed (e : Error)
  | deadline (d : Int)
  | nothing
  | count (n : Nat)
  deriving DecidableEq, Repr

def step (q : Ring) : Command → Ring × Answer
  | .push d =>
      match q.push d with
      | .ok q' => (q', .done)
      | .error e => (q, .failed e)
  | .pop =>
      match q.pop with
      | .ok (d, q') => (q', .deadline d)
      | .error e => (q, .failed e)
  | .popLast =>
      match q.popLast with
      | .ok (d, q') => (q', .deadline d)
      | .error e => (q, .failed e)
  | .peek => (q, (q.peek.map .deadline).getD .nothing)
  | .prune now => let (n, q') := q.dropExpired now; (q', .count n)
  | .capacity => (q, .count q.capacity)

end Ring

end Throttle
