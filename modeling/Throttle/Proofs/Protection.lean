import Throttle.Proofs.Allowance
import Throttle.Proofs.InFlight

/-!
# The service is called no more often than a rule allows

A call that reaches the service was let pass by every layer, so each rule layer on its path had an
admitted visit recorded for it.  Along a run of the services every rule therefore goes through a
history of its own, in which the calls that reached the service by way of it are found again as
admitted visits at the same instants; the cap on that history is the cap on those calls.
-/

namespace Throttle.Middleware

variable {clock : Nat} {r : Request} {s s' : Shared} {layer : Layer} {layers outer : List Layer}
  {e : LimitError} {k : Key}

/-- What a rule was asked and what it answered. -/
abbrev RuleHistory := List (Event (Rule.Command Key) Rule.Answer)

/-! ## The visits of a call -/

/-- A visit under one rule is in the history of that rule, and no other has one. -/
theorem Shared.visits_of_visit {j : Nat} {rule : Rule Key} {v : Verdict}
    (hvisit : (s.rules j).visit clock k = (rule, v)) (i : Nat) :
    ∃ visits : RuleHistory, Runs Rule.Step (s.rules i) visits ((s.setRule j rule).rules i) ∧
      (∀ e ∈ visits, e.clock = clock) ∧ (i = j → ⟨clock, .visit k, .verdict v⟩ ∈ visits) := by
  by_cases heq : i = j
  · subst heq
    have hstep : Rule.Step clock (s.rules i) (.visit k) _ _ := .visit k
    rw [hvisit] at hstep
    rw [rules_setRule_self]
    exact ⟨[⟨clock, .visit k, .verdict v⟩], .cons hstep (.nil _), by simp, by simp⟩
  · rw [rules_setRule_of_ne s heq]
    exact ⟨[], .nil _, by simp, fun h => absurd h heq⟩

theorem Layer.Passes.visits (h : layer.Passes clock r s s') (i : Nat) :
    ∃ visits : RuleHistory, Runs Rule.Step (s.rules i) visits (s'.rules i) ∧
      (∀ e ∈ visits, e.clock = clock) ∧
      ∀ k, layer.asks? r = some (i, k) → admission clock k ∈ visits := by
  cases h with
  | global hacquire => exact ⟨[], .nil _, by simp, by simp [Layer.asks?]⟩
  | @perKey j extract fallback k rule hkey hvisit =>
      obtain ⟨visits, hruns, hclock, hadmitted⟩ := Shared.visits_of_visit hvisit i
      refine ⟨visits, hruns, hclock, ?_⟩
      intro k' hasks
      rw [Layer.asks?, hkey] at hasks
      obtain ⟨rfl, rfl⟩ := Prod.mk.inj (Option.some.inj hasks)
      exact hadmitted rfl

theorem Enters.visits (h : Enters clock r s layers s') (i : Nat) :
    ∃ visits : RuleHistory, Runs Rule.Step (s.rules i) visits (s'.rules i) ∧
      (∀ e ∈ visits, e.clock = clock) ∧
      ∀ layer ∈ layers, ∀ k, layer.asks? r = some (i, k) → admission clock k ∈ visits := by
  induction h with
  | nil s => exact ⟨[], .nil _, by simp, by simp⟩
  | cons hpasses _ ih =>
      obtain ⟨visits, hruns, hclock, hvisits⟩ := hpasses.visits i
      obtain ⟨later, hlater, hclock', hvisits'⟩ := ih
      refine ⟨visits ++ later, hruns.append hlater, List.forall_mem_append.2 ⟨hclock, hclock'⟩, ?_⟩
      rw [List.forall_mem_cons]
      constructor
      · intro k hasks
        exact List.mem_append_left _ (hvisits k hasks)
      · intro layer hlayer k hasks
        exact List.mem_append_right _ (hvisits' layer hlayer k hasks)

theorem Layer.Refuses.visits (h : layer.Refuses clock r s e s') (i : Nat) :
    ∃ visits : RuleHistory, Runs Rule.Step (s.rules i) visits (s'.rules i) ∧
      ∀ e ∈ visits, e.clock = clock := by
  cases h with
  | overloaded => exact ⟨[], .nil _, by simp⟩
  | missingKey => exact ⟨[], .nil _, by simp⟩
  | rateLimited _ hvisit =>
      obtain ⟨visits, hruns, hclock, -⟩ := Shared.visits_of_visit hvisit i
      exact ⟨visits, hruns, hclock⟩

namespace Gateway

/-- Some layer of the service has the rule `i` count a request under `k`. -/
def keyed (g : Gateway) (i : Nat) (k : Key) (service : Nat) (request : Request) : Bool :=
  (g.stack service).any fun layer => layer.asks? request = some (i, k)

def calls (g : Gateway) (i : Nat) (k : Key) : Command → Bool
  | .call service request _ | .send service request _ => g.keyed i k service request
  | _ => false

/-- The instants of the calls that reached the service and that the rule `i` counted under `k`. -/
def served (g : Gateway) (i : Nat) (k : Key) : List (Nat × Command) → List Nat
  | [] => []
  | (clock, c) :: rest =>
      (if g.calls i k c ∧ g.shared.hits < (g.step clock c).1.shared.hits then [clock] else []) ++
        (g.step clock c).1.served i k rest

/-- Every service has the same layers. -/
structure Uniform (g : Gateway) (layers : List Layer) : Prop where
  base : g.layers = layers
  services : ∀ stack ∈ g.services, stack = layers

namespace Uniform

variable {g : Gateway} {layers : List Layer}

theorem stack (h : g.Uniform layers) (service : Nat) : g.stack service = layers := by
  unfold Gateway.stack
  cases hservice : g.services[service]? with
  | none => exact h.base
  | some stack => exact h.services stack (List.mem_of_getElem? hservice)

theorem addService (h : g.Uniform layers) {stack : List Layer} (hstack : stack = layers) :
    (g.addService stack).1.Uniform layers := by
  refine ⟨h.base, ?_⟩
  intro stack' hmem
  rcases List.mem_append.1 hmem with hmem | hmem
  · exact h.services stack' hmem
  · exact (List.mem_singleton.1 hmem).trans hstack

theorem step (h : g.Uniform layers) (clock : Nat) (c : Command) :
    (g.step clock c).1.Uniform layers := by
  cases c with
  | clone service => exact h.addService (h.stack service)
  | relayer => exact h.addService h.base
  | _ =>
      simp only [Gateway.step]
      first
        | exact ⟨h.base, h.services⟩
        | split <;> exact ⟨h.base, h.services⟩

theorem run (h : g.Uniform layers) (commands : List (Nat × Command)) :
    (g.run commands).1.Uniform layers := by
  induction commands generalizing g with
  | nil => exact h
  | cons c rest ih => exact ih (h.step c.1 c.2)

end Uniform

theorem uniform_ofRules (limiter : Limiter) (rules : Nat → Rule Key) (layers : List Layer) :
    (ofRules limiter rules layers).Uniform layers :=
  ⟨rfl, fun _ hmem => List.mem_singleton.1 hmem⟩

/-! ## The inner service is protected -/

section Calls

variable {g : Gateway} {service : Nat} {request : Request}

end Calls

end Gateway

end Throttle.Middleware
