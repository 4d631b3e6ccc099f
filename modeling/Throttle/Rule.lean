import Throttle.Key
import Throttle.Window

/-!
A rule: several windows applied together, such as five visits a second and a hundred an hour.

The windows are asked in order, and the first refusal ends the visit. In independent mode the
windows that had already recorded it keep it; in transactional mode they take it back, so a refused
visit leaves no trace. A rule without windows refuses nothing.
-/

namespace Throttle

inductive RuleMode where
  | independent
  | transactional
  deriving DecidableEq, Repr

structure Rule (κ : Type) where
  windows : List (Window κ)
  mode : RuleMode
  deriving DecidableEq, Repr

namespace Rule

variable {κ : Type}

def empty : Rule κ := ⟨[], .independent⟩

/-- Append a window anchored at the present. -/
def addWindow (r : Rule κ) (clock : Nat) (span : Duration) (allowance : Nat)
    (estimated : Option Nat) : Rule κ :=
  { r with windows := r.windows ++ [.create clock span allowance estimated] }

def occupancy (r : Rule κ) : List Occupancy := r.windows.map (·.occupancy)

def sweep (r : Rule κ) (clock : Nat) : Rule κ :=
  { r with windows := r.windows.map (·.sweep clock) }

def sweepWindow (r : Rule κ) (clock i : Nat) : Rule κ :=
  { r with windows := r.windows.modify i (·.sweep clock) }

section Keyed

variable [DecidableEq κ]

def visitWindows (mode : RuleMode) (clock : Nat) (k : κ) :
    List (Window κ) → List (Window κ) × Verdict
  | [] => ([], .admitted)
  | w :: ws =>
      match w.visit clock k with
      | (w, .refused d) => (w :: ws, .refused d)
      | (w, .admitted) =>
          match visitWindows mode clock k ws with
          | (ws, .admitted) => (w :: ws, .admitted)
          | (ws, .refused d) =>
              match mode with
              | .independent => (w :: ws, .refused d)
              | .transactional => (w.rollback k :: ws, .refused d)

/-- Record a visit if every window has room. -/
def visit (r : Rule κ) (clock : Nat) (k : κ) : Rule κ × Verdict :=
  let (windows, verdict) := visitWindows r.mode clock k r.windows
  ({ r with windows }, verdict)

/-- Visits still open to a key, one count per window. -/
def remaining (r : Rule κ) (clock : Nat) (k : κ) : Rule κ × List Nat :=
  let asked := r.windows.map (·.remaining clock k)
  ({ r with windows := asked.map (·.1) }, asked.map (·.2))

/-! ## Runs of operations -/

inductive Command (κ : Type) where
  | visit (key : κ)
  | remaining (key : κ)
  | sweep
  | sweepWindow (i : Nat)
  | addWindow (span : Duration) (allowance : Nat) (estimated : Option Nat)
  | setMode (mode : RuleMode)
  deriving DecidableEq, Repr

inductive Answer where
  | verdict (v : Verdict)
  | counts (ns : List Nat)
  | done
  deriving DecidableEq, Repr

def step (r : Rule κ) (clock : Nat) : Command κ → Rule κ × Answer
  | .visit k => let (r, v) := r.visit clock k; (r, .verdict v)
  | .remaining k => let (r, ns) := r.remaining clock k; (r, .counts ns)
  | .sweep => (r.sweep clock, .done)
  | .sweepWindow i => (r.sweepWindow clock i, .done)
  | .addWindow span allowance estimated => (r.addWindow clock span allowance estimated, .done)
  | .setMode mode => ({ r with mode }, .done)

/-- The answers to commands, each given with the clock reading at which it arrives. -/
def run (r : Rule κ) : List (Nat × Command κ) → Rule κ × List Answer
  | [] => (r, [])
  | (clock, command) :: rest =>
      let (r, answer) := r.step clock command
      let (r, answers) := r.run rest
      (r, answer :: answers)

end Keyed

/-! ## Rules over general keys -/

/-- The texts of all keys bound in some window, ascending and each once. -/
def online (r : Rule Key) : List String :=
  Ascending.ofList compare ((r.windows.flatMap (·.online)).map Key.toText)

/-- Visit under an address; every text that is no address visits under `0.0.0.0`. -/
def visitAddress (r : Rule Key) (clock : Nat) (s : String) : Rule Key × Verdict :=
  r.visit clock (.ip (.ofText s))

/-- Visits still open to an address, and none at all where the text is no address. -/
def remainingAddress (r : Rule Key) (clock : Nat) (s : String) : Rule Key × List Nat :=
  match Address.V4.parse s with
  | .ok a => r.remaining clock (.ip a)
  | .error _ => (r, [])

end Rule

def RuleMode.describe : RuleMode → String
  | .independent => "Independent"
  | .transactional => "Transactional"

def Rule.describe {κ : Type} (r : Rule κ) : String :=
  "Rule \x7b rules: [" ++ ", ".intercalate (r.windows.map (·.describe)) ++ "], mode: "
    ++ r.mode.describe ++ " \x7d"

end Throttle
