import Throttle.Proofs.History
import Throttle.Rule

/-!
# The visits that a history admits

Windows and rules have their own commands and answers, but both are asked for visits and admit some
of them.  The log of those is read off a history by `admitted`.  A condition that every event meets
together with the log of the events before it holds `Throughout`, and a cap on the log follows from
such a condition.
-/

namespace Throttle

/-- Commands and answers by which the visits of keys are admitted. -/
class Admitting (γ α : Type) (κ : outParam Type) where
  admission : Nat → κ → Event γ α
  admission? : Event γ α → Option (Nat × κ)
  admission?_eq_some : ∀ {e : Event γ α} {s : Nat} {k : κ},
    admission? e = some (s, k) ↔ e = admission s k
  clock_admission : ∀ {s : Nat} {k : κ}, (admission s k).clock = s

export Admitting (admission admission? admission?_eq_some clock_admission)

instance {κ : Type} : Admitting (Window.Command κ) (Window.Answer κ) κ where
  admission s k := ⟨s, .visit k, .verdict .admitted⟩
  admission?
    | ⟨s, .visit k, .verdict .admitted⟩ => some (s, k)
    | _ => none
  admission?_eq_some := by
    intro e s k
    split
    next => simp
    next hnot => simpa using fun heq => hnot s k heq
  clock_admission := rfl

instance {κ : Type} : Admitting (Rule.Command κ) Rule.Answer κ where
  admission s k := ⟨s, .visit k, .verdict .admitted⟩
  admission?
    | ⟨s, .visit k, .verdict .admitted⟩ => some (s, k)
    | _ => none
  admission?_eq_some := by
    intro e s k
    split
    next => simp
    next hnot => simpa using fun heq => hnot s k heq
  clock_admission := rfl

variable {γ α κ : Type} [Admitting γ α κ]

def admitted (history : List (Event γ α)) : VisitLog κ := history.filterMap admission?

variable {P Q : VisitLog κ → Event γ α → Prop} {log : VisitLog κ}
  {history history' rest : List (Event γ α)} {e : Event γ α} {k : κ} {s : Nat}

theorem admission?_eq_none (h : ∀ s k, e ≠ admission s k) : admission? e = none := by
  cases hadmission : admission? e with
  | none => rfl
  | some v => exact absurd (admission?_eq_some.1 hadmission) (h v.1 v.2)

theorem admitted_append : admitted (history ++ history') = admitted history ++ admitted history' :=
  List.filterMap_append

theorem admitted_cons : admitted (e :: rest) = (admission? e).toList ++ admitted rest := by
  rw [admitted, List.filterMap_cons]
  cases admission? e <;> rfl

theorem exists_clock_of_mem_instants [DecidableEq κ] (h : s ∈ (admitted history).instants k) :
    ∃ e ∈ history, e.clock = s := by
  obtain ⟨e, he, hadmission⟩ := List.mem_filterMap.1 (VisitLog.mem_instants.1 h)
  rw [admission?_eq_some] at hadmission
  exact ⟨e, he, hadmission ▸ clock_admission⟩

/-! ## Conditions on every event -/

/-- Every event of the history fits the log of the visits admitted before it. -/
def Throughout (P : VisitLog κ → Event γ α → Prop) (log : VisitLog κ)
    (history : List (Event γ α)) : Prop :=
  ∀ before e rest, history = before ++ e :: rest → P (log ++ admitted before) e

theorem throughout_nil : Throughout P log [] := by
  intro before e rest heq
  simp at heq

theorem throughout_cons :
    Throughout P log (e :: rest) ↔ P log e ∧ Throughout P (log ++ (admission? e).toList) rest := by
  constructor
  · intro h
    refine ⟨by simpa [admitted] using h [] e rest rfl, ?_⟩
    intro before e' rest' heq
    have hlater := h (e :: before) e' rest' (by rw [heq, List.cons_append])
    rwa [admitted_cons, ← List.append_assoc] at hlater
  · rintro ⟨hhead, htail⟩ before e' rest' heq
    cases before with
    | nil =>
        obtain ⟨rfl, -⟩ := List.cons.inj heq
        simpa [admitted] using hhead
    | cons e₀ before =>
        obtain ⟨rfl, htl⟩ := List.cons.inj heq
        rw [admitted_cons, ← List.append_assoc]
        exact htail before e' rest' htl

theorem Throughout.imp (h : Throughout P log history) (hPQ : ∀ log e, P log e → Q log e) :
    Throughout Q log history :=
  fun before e rest heq => hPQ _ _ (h before e rest heq)

theorem Throughout.of_append (h : Throughout P log (history ++ rest)) :
    Throughout P log history := by
  intro before e later heq
  exact h before e (later ++ rest) (by rw [heq, List.append_assoc, List.cons_append])

theorem Throughout.last (h : Throughout P log (history ++ [e])) : P (log ++ admitted history) e :=
  h history e [] rfl

variable [DecidableEq κ]

/-- A visit is admitted only while fewer than the allowance still count. -/
def Spares (span : Int) (allowance : Nat) (log : VisitLog κ) (e : Event γ α) : Prop :=
  ∀ s k, admission? e = some (s, k) → (log.recent span s k).length < allowance

theorem Throughout.capped {span : Int} {allowance : Nat} (hcap : log.Capped span allowance)
    (h : Throughout (Spares span allowance) log history) :
    (log ++ admitted history).Capped span allowance := by
  induction history generalizing log with
  | nil => simpa [admitted] using hcap
  | cons e rest ih =>
      obtain ⟨hhead, htail⟩ := throughout_cons.1 h
      rw [admitted_cons, ← List.append_assoc]
      apply ih _ htail
      cases hadmission : admission? e with
      | none => simpa using hcap
      | some v => exact hcap.append (hhead v.1 v.2 hadmission)

end Throttle
