import Mathlib.Data.List.Forall2

/-!
# Histories of commands and logs of admitted visits

A history lists commands with the clock readings at which they came and the answers they got.  An
`Ideal` machine says which answers are right, from a state that only the history determines.  A
`VisitLog` is such a state, the instants of all admitted visits; nothing is ever pruned from it.
A window of length `span` counts the visits that are `recent`.
-/

namespace Throttle

structure Event (γ α : Type) where
  clock : Nat
  command : γ
  answer : α
  deriving DecidableEq, Repr

namespace Event

variable {γ α : Type} {history history' : List (Event γ α)}

def call (e : Event γ α) : Nat × γ := (e.clock, e.command)

theorem forall_of_calls {p : Nat × γ → Prop} (hcalls : history'.map call = history.map call)
    (h : ∀ e ∈ history, p e.call) : ∀ e ∈ history', p e.call := by
  rw [← List.forall_mem_map] at h ⊢
  rwa [hcalls]

theorem pairwise_of_calls {r : Nat × γ → Nat × γ → Prop}
    (hcalls : history'.map call = history.map call)
    (h : history.Pairwise fun e e' => r e.call e'.call) :
    history'.Pairwise fun e e' => r e.call e'.call := by
  rw [← List.pairwise_map] at h ⊢
  rwa [hcalls]

end Event

/-- `Runs step s history s'`: one step after the other, the history leads from `s` to `s'`. -/
inductive Runs {σ γ α : Type} (step : Nat → σ → γ → σ → α → Prop) :
    σ → List (Event γ α) → σ → Prop where
  | nil (s : σ) : Runs step s [] s
  | cons {s s' s'' : σ} {e : Event γ α} {rest : List (Event γ α)} :
      step e.clock s e.command s' e.answer → Runs step s' rest s'' → Runs step s (e :: rest) s''

namespace Runs

variable {σ γ α : Type} {step : Nat → σ → γ → σ → α → Prop} {s s' s'' t t' : σ}
  {history history' : List (Event γ α)}

theorem append (h : Runs step s history s') (h' : Runs step s' history' s'') :
    Runs step s (history ++ history') s'' := by
  induction h with
  | nil => exact h'
  | cons hstep _ ih => exact .cons hstep (ih h')

theorem exists_between (h : Runs step s (history ++ history') s'') :
    ∃ s', Runs step s history s' ∧ Runs step s' history' s'' := by
  induction history generalizing s with
  | nil => exact ⟨s, .nil s, h⟩
  | cons e rest ih =>
      cases h with
      | cons hstep hrest =>
          obtain ⟨s', hruns, hruns'⟩ := ih hrest
          exact ⟨s', .cons hstep hruns, hruns'⟩

theorem exists_at {clock : Nat} {c : γ} {a : α}
    (h : Runs step s (history ++ ⟨clock, c, a⟩ :: history') s'') :
    ∃ s₁ s₂, Runs step s history s₁ ∧ step clock s₁ c s₂ a ∧ Runs step s₂ history' s'' := by
  obtain ⟨s₁, hbefore, hrest⟩ := h.exists_between
  cases hrest with
  | cons hstep hafter => exact ⟨s₁, _, hbefore, hstep, hafter⟩

/-! ### Two runs side by side

Some commands are seen and the others hidden.  A relation that hidden steps keep on either side, and
that seen steps keep when both sides take them, holds after any two runs with the same seen calls.
-/

variable {related : σ → σ → Prop} (seen : γ → Bool)

theorem related_of_hidden
    (hright : ∀ ⦃s t t' clock c a⦄, related s t → seen c = false → step clock t c t' a →
      related s t')
    (hruns : Runs step t history t') (h : related s t)
    (hhidden : history.filter (fun e => seen e.command) = []) : related s t' := by
  induction hruns with
  | nil => exact h
  | cons hstep _ ih =>
      rw [List.filter_eq_nil_iff, List.forall_mem_cons] at hhidden
      obtain ⟨hhead, htail⟩ := hhidden
      exact ih (hright h (by simpa using hhead) hstep) (List.filter_eq_nil_iff.2 htail)

theorem exists_first_seen
    (hright : ∀ ⦃s t t' clock c a⦄, related s t → seen c = false → step clock t c t' a →
      related s t')
    (hruns : Runs step t history t') (h : related s t) {e : Event γ α} {rest : List (Event γ α)}
    (hseen : history.filter (fun e => seen e.command) = e :: rest) :
    ∃ t₁ t₂ history', related s t₁ ∧ step e.clock t₁ e.command t₂ e.answer ∧
      Runs step t₂ history' t' ∧ history'.filter (fun e => seen e.command) = rest := by
  induction hruns with
  | nil => simp at hseen
  | @cons t t₁ t' e' rest' hstep hrest ih =>
      cases he : seen e'.command with
      | false =>
          simp only [List.filter_cons, he, Bool.false_eq_true, if_false] at hseen
          exact ih (hright h he hstep) hseen
      | true =>
          simp only [List.filter_cons, he, if_true] at hseen
          obtain ⟨rfl, hfilter⟩ := List.cons.inj hseen
          exact ⟨t, t₁, rest', h, hstep, hrest, hfilter⟩

theorem seen_eq
    (hleft : ∀ ⦃s t s' clock c a⦄, related s t → seen c = false → step clock s c s' a →
      related s' t)
    (hright : ∀ ⦃s t t' clock c a⦄, related s t → seen c = false → step clock t c t' a →
      related s t')
    (hboth : ∀ ⦃s t s' t' clock c a b⦄, related s t → seen c = true → step clock s c s' a →
      step clock t c t' b → a = b ∧ related s' t')
    (hruns : Runs step s history s') (hruns' : Runs step t history' t') (h : related s t)
    (hcalls : (history.filter fun e => seen e.command).map Event.call =
      (history'.filter fun e => seen e.command).map Event.call) :
    (history.filter fun e => seen e.command) = (history'.filter fun e => seen e.command) ∧
      related s' t' := by
  induction hruns generalizing t history' with
  | nil s =>
      have hhidden : (history'.filter fun e => seen e.command) = [] := by simpa using hcalls.symm
      rw [hhidden]
      exact ⟨rfl, related_of_hidden seen hright hruns' h hhidden⟩
  | @cons s s₁ s' e rest hstep hrest ih =>
      cases he : seen e.command with
      | false =>
          simp only [List.filter_cons, he, Bool.false_eq_true, if_false] at hcalls ⊢
          exact ih hruns' (hleft h he hstep) hcalls
      | true =>
          simp only [List.filter_cons, he, if_true, List.map_cons] at hcalls ⊢
          -- The other run hides a few commands before it comes to the same call.
          obtain ⟨e', rest', hfilter, hcall, hrests⟩ := List.map_eq_cons_iff.1 hcalls.symm
          obtain ⟨t₁, t₂, later, hrelated, hstep', hlater, hrest'⟩ :=
            exists_first_seen seen hright hruns' h hfilter
          obtain ⟨clock, command, answer⟩ := e
          obtain ⟨clock', command', answer'⟩ := e'
          simp only [Event.call, Prod.mk.injEq] at hcall
          obtain ⟨rfl, rfl⟩ := hcall
          obtain ⟨hanswer, hnext⟩ := hboth hrelated he hstep hstep'
          obtain ⟨htail, hlast⟩ := ih hlater hnext (by rw [hrest', hrests])
          simp only at hanswer
          rw [hfilter, htail, hrest', hanswer]
          exact ⟨rfl, hlast⟩

end Runs

/-- `Erased p l kept`: what is left of `l` after removing some entries, all of which satisfy `p`. -/
inductive Erased {α : Type} (p : α → Prop) : List α → List α → Prop where
  | nil : Erased p [] []
  | keep {a : α} {l kept : List α} : Erased p l kept → Erased p (a :: l) (a :: kept)
  | drop {a : α} {l kept : List α} : p a → Erased p l kept → Erased p (a :: l) kept

theorem Erased.sublist {α : Type} {p : α → Prop} {l kept : List α} (h : Erased p l kept) :
    kept.Sublist l := by
  induction h with
  | nil => exact List.Sublist.slnil
  | keep _ ih => exact ih.cons_cons _
  | drop _ _ ih => exact ih.cons _

/-! ## Ideal machines -/

/-- The right answer to each command, as far as there is one, and what an event leaves behind. -/
structure Ideal (σ γ α : Type) where
  answer? : σ → Nat → γ → Option α
  next : σ → Event γ α → σ

namespace Ideal

variable {σ τ γ α : Type} (m : Ideal σ γ α)

def after (s : σ) (history : List (Event γ α)) : σ := history.foldl m.next s

def Explains (s : σ) (e : Event γ α) : Prop :=
  ∀ a, m.answer? s e.clock e.command = some a → e.answer = a

/-- Every answer of the history is the one that the events before it call for. -/
def Answers (s : σ) (history : List (Event γ α)) : Prop :=
  ∀ before e rest, history = before ++ e :: rest → m.Explains (m.after s before) e

theorem answers_cons {s : σ} {e : Event γ α} {rest : List (Event γ α)} :
    m.Answers s (e :: rest) ↔ m.Explains s e ∧ m.Answers (m.next s e) rest := by
  constructor
  · intro h
    refine ⟨h [] e rest rfl, ?_⟩
    intro before e' rest' heq
    exact h (e :: before) e' rest' (by rw [heq, List.cons_append])
  · rintro ⟨hhead, htail⟩ before e' rest' heq
    cases before with
    | nil =>
        obtain ⟨rfl, -⟩ := List.cons.inj heq
        exact hhead
    | cons e₀ before =>
        obtain ⟨rfl, htl⟩ := List.cons.inj heq
        exact htail before e' rest' htl

variable {m}

theorem answers_of_runs {step : Nat → τ → γ → τ → α → Prop}
    {related : τ → σ → List (Event γ α) → Prop}
    (hstep : ∀ {t t' s clock c a rest}, related t s (⟨clock, c, a⟩ :: rest) → step clock t c t' a →
      m.Explains s ⟨clock, c, a⟩ ∧ related t' (m.next s ⟨clock, c, a⟩) rest)
    {t t' : τ} {s : σ} {history : List (Event γ α)} (hruns : Runs step t history t')
    (h : related t s history) : m.Answers s history := by
  induction hruns generalizing s with
  | nil =>
      intro before e rest heq
      simp at heq
  | cons hfirst _ ih =>
      obtain ⟨hexplains, hrest⟩ := hstep h hfirst
      exact m.answers_cons.2 ⟨hexplains, ih hrest⟩

theorem Explains.eq {s : σ} {e e' : Event γ α} (h : m.Explains s e) (h' : m.Explains s e')
    (hcall : e'.call = e.call) {a : α} (ha : m.answer? s e.clock e.command = some a) : e' = e := by
  obtain ⟨clock, command, answer⟩ := e
  obtain ⟨clock', command', answer'⟩ := e'
  obtain ⟨rfl, rfl⟩ := Prod.mk.inj hcall
  have heq : answer = a := h a ha
  have heq' : answer' = a := h' a ha
  rw [heq, heq']

/--
Erasing events that leave nothing behind changes no other answer: a history that asks what is left
gets the same answers again, as far as the ideal machine settles them.
-/
theorem answers_of_erased (settled : γ → Prop)
    (hsettled : ∀ s clock c, settled c → ∃ a, m.answer? s clock c = some a)
    (hopen : ∀ s e e', ¬ settled e.command → Event.call e' = Event.call e →
      m.next s e' = m.next s e)
    {p : Event γ α → Prop} (hp : ∀ s e, p e → m.next s e = s) {history kept : List (Event γ α)}
    (herased : Erased p history kept) {s : σ} (h : m.Answers s history)
    {history' : List (Event γ α)} (h' : m.Answers s history')
    (hcalls : history'.map Event.call = kept.map Event.call) :
    List.Forall₂ (fun e e' => settled e.command → e' = e) kept history' := by
  induction herased generalizing s history' with
  | nil =>
      rw [List.map_eq_nil_iff.1 hcalls]
      exact .nil
  | @keep e l kept _ ih =>
      cases history' with
      | nil => simp at hcalls
      | cons e' rest' =>
          obtain ⟨hcall, hrest⟩ := List.cons.inj hcalls
          obtain ⟨hexplains, htail⟩ := m.answers_cons.1 h
          obtain ⟨hexplains', htail'⟩ := m.answers_cons.1 h'
          have hsame : settled e.command → e' = e := by
            intro hc
            obtain ⟨a, ha⟩ := hsettled s e.clock e.command hc
            exact hexplains.eq hexplains' hcall ha
          have hnext : m.next s e' = m.next s e := by
            by_cases hc : settled e.command
            · rw [hsame hc]
            · exact hopen s e e' hc hcall
          rw [hnext] at htail'
          exact .cons hsame (ih htail htail' hrest)
  | @drop e l kept hpe _ ih =>
      have htail := (m.answers_cons.1 h).2
      rw [hp s e hpe] at htail
      exact ih htail h' hcalls

end Ideal

/-! ## Logs of visits -/

/-- Admitted visits with their instants, the latest last. -/
abbrev VisitLog (κ : Type) := List (Nat × κ)

namespace VisitLog

variable {κ : Type} [DecidableEq κ]

def instants (log : VisitLog κ) (k : κ) : List Nat := (log.filter (·.2 = k)).map (·.1)

/-- The visits of a key that still count at `clock`: those no more than `span` ago. -/
def recent (log : VisitLog κ) (span : Int) (clock : Nat) (k : κ) : List Nat :=
  (log.instants k).filter fun s => (clock : Int) ≤ s + span

theorem instants_append (log : VisitLog κ) (clock : Nat) (k k' : κ) :
    instants (log ++ [(clock, k)]) k' =
      if k' = k then log.instants k' ++ [clock] else log.instants k' := by
  by_cases heq : k' = k
  · simp [instants, heq]
  · simp [instants, heq, Ne.symm heq]

theorem instants_append_log (log log' : VisitLog κ) (k : κ) :
    instants (log ++ log') k = log.instants k ++ log'.instants k := by
  simp [instants]

theorem mem_instants {log : VisitLog κ} {s : Nat} {k : κ} : s ∈ log.instants k ↔ (s, k) ∈ log := by
  simp [instants]

theorem mem_recent {log : VisitLog κ} {span : Int} {clock s : Nat} {k : κ} :
    s ∈ log.recent span clock k ↔ s ∈ log.instants k ∧ (clock : Int) ≤ s + span := by
  simp [recent]

theorem recent_recent {log : VisitLog κ} {span : Int} {clock clock' : Nat} (h : clock ≤ clock')
    (k : κ) :
    (log.recent span clock k).filter (fun s : Nat => (clock' : Int) ≤ s + span) =
      log.recent span clock' k := by
  rw [recent, recent, List.filter_filter]
  apply List.filter_congr
  intro s _
  simp only [← Bool.decide_and, decide_eq_decide]
  omega

def between (log : VisitLog κ) (first last : Nat) (k : κ) : List Nat :=
  (log.instants k).filter fun s => first ≤ s ∧ s ≤ last

/-- No closed stretch of at most `span` holds more than `allowance` visits of one key. -/
def Capped (log : VisitLog κ) (span : Int) (allowance : Nat) : Prop :=
  ∀ (k : κ) (first last : Nat), (last : Int) ≤ first + span →
    (log.between first last k).length ≤ allowance

theorem capped_nil (span : Int) (allowance : Nat) : Capped ([] : VisitLog κ) span allowance := by
  intro k first last _
  simp [between, instants]

theorem Capped.append {log : VisitLog κ} {span : Int} {allowance : Nat}
    (h : log.Capped span allowance) {clock : Nat} {k : κ}
    (hroom : (log.recent span clock k).length < allowance) :
    Capped (log ++ [(clock, k)]) span allowance := by
  intro k' first last hspan
  have hold := h k' first last hspan
  rw [between] at hold ⊢
  rw [instants_append]
  split
  next heq =>
    subst heq
    rw [List.filter_append, List.length_append]
    by_cases hin : first ≤ clock ∧ clock ≤ last
    · -- Whatever shares the stretch with the new visit still counts at its instant.
      have hshare : ((log.instants k').filter fun s => first ≤ s ∧ s ≤ last).length ≤
          (log.recent span clock k').length := by
        apply List.Sublist.length_le
        apply List.monotone_filter_right
        intro s hs
        simp only [decide_eq_true_eq] at hs ⊢
        omega
      simp only [List.filter_cons, hin, and_self, decide_true, if_true, List.filter_nil,
        List.length_singleton]
      omega
    · simpa [List.filter_cons, hin] using hold
  next => exact hold

end VisitLog

end Throttle
