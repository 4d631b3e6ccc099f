import Throttle.Ascending
import Throttle.Duration
import Throttle.Slots

/-!
One sliding window: at most `allowance` visits of a key within any stretch of length `span`.

A visit is recorded as the deadline after which it no longer counts, so a key's recorded visits are
its ring of deadlines. Clock readings are nanoseconds; a window counts from its own `anchor`, and a
reading before the anchor counts as the anchor. The elapsed time, the window's length and their sum,
the deadline, are signed 64-bit words, and so is the time until a deadline that a refusal reports:
each wraps around where it does not fit. A deadline is live as long as it is not before the present.
-/

namespace Throttle

/-- The outcome of a visit. A refusal says how long until the earliest recorded visit expires. -/
inductive Verdict where
  | admitted
  | refused (retryAfter : Duration)
  deriving DecidableEq, Repr

def Verdict.isAdmitted : Verdict → Bool
  | .admitted => true
  | .refused _ => false

def minSpan : Duration := .ofNanos 1000000

def minSweepInterval : Duration := .ofSecs 1

def maxSweepInterval : Duration := .ofSecs 60

/-- A hundredth of the span, between one second and one minute. -/
def sweepInterval (span : Duration) : Duration :=
  min (max (.ofNanos (span.toNanos / 100)) minSweepInterval) maxSweepInterval

structure Window (κ : Type) where
  span : Duration
  allowance : Nat
  estimated : Nat
  anchor : Nat
  slots : Slots κ
  deriving DecidableEq, Repr

namespace Window

variable {κ : Type}

/--
A span below a millisecond is raised to it, an allowance of zero counts as one, and the expected
number of keys defaults to the allowance when missing or zero.
-/
def create (clock : Nat) (span : Duration) (allowance : Nat) (estimated : Option Nat) : Window κ :=
  let allowance := max allowance 1
  let estimated :=
    match estimated with
    | some (n + 1) => n + 1
    | _ => allowance
  { span := max span minSpan
    allowance
    estimated
    anchor := clock
    slots := .ofEstimate estimated allowance }

def sweepInterval (w : Window κ) : Duration := Throttle.sweepInterval w.span

/-- Time since the anchor, as a signed 64-bit word. -/
def elapsed (w : Window κ) (clock : Nat) : Int := signedWord (clock - w.anchor : Nat)

/-- The deadline of a visit. -/
def due (w : Window κ) (clock : Nat) : Int := signedWord (w.elapsed clock + w.span.signedNanos)

def occupancy (w : Window κ) : Occupancy := w.slots.occupancy

/-- The keys bound to a slot. -/
def online (w : Window κ) : List κ := w.slots.keys

def sweep (w : Window κ) (clock : Nat) : Window κ :=
  { w with slots := w.slots.sweep w.estimated w.allowance (w.elapsed clock) }

/-- A deadline is live while it is not before `now`, so room opens one nanosecond after it. -/
def retryAfter (earliest now : Int) : Duration :=
  .ofNanos (max (signedWord (earliest - now + 1)) 1).toNat

section Keyed

variable [DecidableEq κ]

/-- Record a visit if the key has room. -/
def visit (w : Window κ) (clock : Nat) (k : κ) : Window κ × Verdict :=
  let now := w.elapsed clock
  let deadline := w.due clock
  match w.slots.slotOf? k with
  | none => ({ w with slots := w.slots.bind w.allowance k deadline }, .admitted)
  | some i =>
      let ring := ((w.slots.ring i).dropExpired now).2
      match ring.push deadline with
      | .ok ring => ({ w with slots := w.slots.setRing i ring }, .admitted)
      | .error _ =>
          ({ w with slots := w.slots.setRing i ring },
            .refused (retryAfter (ring.peek.getD now) now))

/-- Take back the latest visit recorded for a key. -/
def rollback (w : Window κ) (k : κ) : Window κ :=
  match w.slots.slotOf? k with
  | none => w
  | some i =>
      let ring :=
        match (w.slots.ring i).popLast with
        | .ok (_, ring) => ring
        | .error _ => w.slots.ring i
      let slots := w.slots.setRing i ring
      { w with slots := if ring.isEmpty then slots.release k i else slots }

/-- Visits still open to a key. -/
def remaining (w : Window κ) (clock : Nat) (k : κ) : Window κ × Nat :=
  match w.slots.slotOf? k with
  | none => (w, w.allowance)
  | some i =>
      let ring := ((w.slots.ring i).dropExpired (w.elapsed clock)).2
      ({ w with slots := w.slots.setRing i ring }, ring.room)

/-! ## Runs of operations -/

inductive Command (κ : Type) where
  | visit (key : κ)
  | remaining (key : κ)
  | rollback (key : κ)
  | sweep
  | online
  deriving DecidableEq, Repr

inductive Answer (κ : Type) where
  | verdict (v : Verdict)
  | count (n : Nat)
  | keys (ks : List κ)
  | done
  deriving DecidableEq, Repr

def step (w : Window κ) (clock : Nat) : Command κ → Window κ × Answer κ
  | .visit k => let (w, v) := w.visit clock k; (w, .verdict v)
  | .remaining k => let (w, n) := w.remaining clock k; (w, .count n)
  | .rollback k => (w.rollback k, .done)
  | .sweep => (w.sweep clock, .done)
  | .online => (w, .keys w.online)

/-- The answers to commands, each given with the clock reading at which it arrives. -/
def run (w : Window κ) : List (Nat × Command κ) → Window κ × List (Answer κ)
  | [] => (w, [])
  | (clock, command) :: rest =>
      let (w, answer) := w.step clock command
      let (w, answers) := w.run rest
      (w, answer :: answers)

end Keyed

def describe (w : Window κ) : String :=
  "SingleRule \x7b window: " ++ w.span.describe ++ ", allowance: " ++ toString w.allowance
    ++ ", estimated: " ++ toString w.estimated ++ ", cleanup_interval: "
    ++ w.sweepInterval.describe ++ " \x7d"

end Window

end Throttle
