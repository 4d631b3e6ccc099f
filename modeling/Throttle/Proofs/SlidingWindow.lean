import Throttle.Proofs.Admissions
import Throttle.Proofs.Order
import Throttle.Proofs.Tracking

/-!
# A window answers as a sliding log

The ideal window keeps the log of all visits it ever admitted, and admits one more if fewer than
the allowance still count.  The real one keeps rings in recycled slots, prunes them when it meets
them, and sweeps and compacts.  While the clock does not go back and stays in range, the answers
are the same; the invariant that carries the induction over a history is `Tracks`.
-/

namespace Throttle.Window

variable {κ : Type} [DecidableEq κ]

/-! ## The ideal window -/

/-- Sweeps leave nothing behind, and which keys are listed as bound is not settled. -/
def slidingLog (span : Int) (allowance : Nat) : Ideal (VisitLog κ) (Command κ) (Answer κ) where
  answer? log clock
    | .visit k => some (.verdict (log.verdict span allowance clock k))
    | .remaining k => some (.count (allowance - (log.recent span clock k).length))
    | .sweep => some .done
    | .rollback _ => none
    | .online => none
  next log e := log ++ (admission? e).toList

variable {span : Int} {allowance : Nat} {log : VisitLog κ}
  {history : List (Event (Command κ) (Answer κ))}

theorem after_slidingLog :
    (slidingLog span allowance).after log history = log ++ admitted history := by
  induction history generalizing log with
  | nil => simp [Ideal.after, admitted]
  | cons e rest ih =>
      change (slidingLog span allowance).after (log ++ (admission? e).toList) rest = _
      rw [ih, admitted, admitted, List.filterMap_cons, List.append_assoc]
      cases admission? e <;> rfl

theorem next_visit (clock : Nat) (k : κ) (v : Verdict) :
    (slidingLog span allowance).next log ⟨clock, .visit k, .verdict v⟩ =
      if v = .admitted then log ++ [(clock, k)] else log := by
  cases v <;> simp [slidingLog, admission?]

theorem next_of_not_visit {e : Event (Command κ) (Answer κ)} (h : ∀ k, e.command ≠ .visit k) :
    (slidingLog span allowance).next log e = log := by
  have hnone : admission? e = none := by
    apply admission?_eq_none
    rintro s k rfl
    exact h k rfl
  change log ++ (admission? e).toList = log
  rw [hnone, Option.toList_none, List.append_nil]

theorem answers_iff_throughout :
    (slidingLog span allowance).Answers log history ↔
      Throughout (slidingLog span allowance).Explains log history := by
  simp only [Ideal.Answers, Throughout, after_slidingLog]

theorem spares_of_explains {e : Event (Command κ) (Answer κ)}
    (h : (slidingLog span allowance).Explains log e) : Spares span allowance log e := by
  intro s k hadmission
  rw [admission?_eq_some.1 hadmission] at h
  have hverdict := h (.verdict (log.verdict span allowance s k)) rfl
  change Answer.verdict .admitted = _ at hverdict
  rw [Answer.verdict.injEq, VisitLog.verdict] at hverdict
  split at hverdict
  next hroom => exact hroom
  next => contradiction

theorem capped_of_answers (hcap : log.Capped span allowance)
    (h : (slidingLog span allowance).Answers log history) :
    (log ++ admitted history).Capped span allowance :=
  ((answers_iff_throughout.1 h).imp fun _ _ => spares_of_explains).capped hcap

/-! ## The invariant -/

/-- `w` tracks `log`, and the events to come do not go back in time nor out of range. -/
structure Follows (span : Int) (allowance : Nat) (w : Window κ) (log : VisitLog κ)
    (rest : List (Event (Command κ) (Answer κ))) : Prop where
  tracks : ∃ clock, w.Tracks log clock ∧ ∀ e ∈ rest, clock ≤ e.clock
  span_eq : w.span.signedNanos = span
  allowance_eq : w.allowance = allowance
  ordered : rest.Pairwise fun e e' => e.clock ≤ e'.clock
  inRange : ∀ e ∈ rest, w.InRange e.clock
  noRollback : ∀ e ∈ rest, ∀ k, e.command ≠ .rollback k

theorem Follows.next {w w' : Window κ} {log' : VisitLog κ} {lists : κ → List Int}
    {e : Event (Command κ) (Answer κ)} (h : Follows span allowance w log (e :: history))
    (hw : w.Becomes w' lists) (htracks : w'.Tracks log' e.clock) :
    Follows span allowance w' log' history := by
  have hordered := List.pairwise_cons.1 h.ordered
  refine ⟨⟨e.clock, htracks, hordered.1⟩, ?_, ?_, hordered.2, ?_, ?_⟩
  · rw [hw.span]
    exact h.span_eq
  · rw [hw.allowance]
    exact h.allowance_eq
  · intro e' he'
    exact hw.inRange.2 (h.inRange e' (List.mem_cons_of_mem _ he'))
  · exact fun e' he' => h.noRollback e' (List.mem_cons_of_mem _ he')

theorem Follows.step {w w' : Window κ} {clock : Nat} {c : Command κ} {a : Answer κ}
    (h : Follows span allowance w log (⟨clock, c, a⟩ :: history)) (hstep : Step clock w c w' a) :
    (slidingLog span allowance).Explains log ⟨clock, c, a⟩ ∧
      Follows span allowance w' ((slidingLog span allowance).next log ⟨clock, c, a⟩) history := by
  obtain ⟨before, htracks, hle⟩ := h.tracks
  have hin : w.InRange clock := h.inRange _ List.mem_cons_self
  have hnow : w.Tracks log clock := htracks.advance (hle _ List.mem_cons_self)
  cases hstep with
  | visit k =>
      obtain ⟨hverdict, hvisit⟩ := hnow.visit hin k
      rw [h.span_eq, h.allowance_eq] at hverdict
      refine ⟨?_, ?_⟩
      · rintro _ ⟨rfl⟩
        rw [hverdict]
      · obtain ⟨lists, hbecomes⟩ := hnow.valid.visit_becomes clock k
        apply h.next hbecomes
        rw [next_visit]
        exact hvisit
  | remaining k =>
      obtain ⟨hcount, hremaining⟩ := hnow.remaining hin k
      rw [h.span_eq, h.allowance_eq] at hcount
      refine ⟨?_, ?_⟩
      · rintro _ ⟨rfl⟩
        rw [hcount]
      · rw [next_of_not_visit (by simp)]
        exact h.next (hnow.valid.remaining_pruned clock k).2 hremaining
  | rollback k => exact absurd rfl (h.noRollback _ List.mem_cons_self k)
  | sweep hswept =>
      have hbecomes := hswept.becomes hnow.valid
      refine ⟨?_, ?_⟩
      · rintro _ ⟨rfl⟩
        rfl
      · rw [next_of_not_visit (by simp)]
        exact h.next hbecomes (hnow.prune hin hbecomes fun k => .inr rfl)
  | online _ =>
      refine ⟨?_, ?_⟩
      · rintro _ ⟨⟩
      · rw [next_of_not_visit (by simp)]
        exact h.next hnow.valid.becomes_self hnow

theorem Follows.of_calls {w : Window κ} {kept history' : List (Event (Command κ) (Answer κ))}
    (h : Follows span allowance w log history) (hkept : kept.Sublist history)
    (hcalls : history'.map Event.call = kept.map Event.call) :
    Follows span allowance w log history' := by
  obtain ⟨clock, htracks, hle⟩ := h.tracks
  have hsub : ∀ e ∈ kept, e ∈ history := fun e he => hkept.subset he
  refine ⟨⟨clock, htracks, ?_⟩, h.span_eq, h.allowance_eq, ?_, ?_, ?_⟩
  · exact Event.forall_of_calls (p := fun c => clock ≤ c.1) hcalls fun e he => hle e (hsub e he)
  · exact Event.pairwise_of_calls (r := fun c c' => c.1 ≤ c'.1) hcalls (h.ordered.sublist hkept)
  · exact Event.forall_of_calls (p := fun c => w.InRange c.1) hcalls
      fun e he => h.inRange e (hsub e he)
  · exact Event.forall_of_calls (p := fun c => ∀ k, c.2 ≠ .rollback k) hcalls
      fun e he => h.noRollback e (hsub e he)

theorem Follows.answers {w w' : Window κ} (h : Follows span allowance w log history)
    (hruns : Runs Step w history w') : (slidingLog span allowance).Answers log history :=
  Ideal.answers_of_runs (fun hfollows hstep => hfollows.step hstep) hruns h

/-! ## Whole histories -/

theorem Follows.create {clock : Nat} {span : Duration} {allowance : Nat} {estimated : Option Nat}
    (hordered : history.Pairwise fun e e' => e.clock ≤ e'.clock)
    (hrange : ∀ e ∈ history, clock ≤ e.clock ∧ e.clock < clock + 2 ^ 63 ∧
      (e.clock : Int) - clock + (max span minSpan).signedNanos < 2 ^ 63)
    (hnoRollback : ∀ e ∈ history, ∀ k, e.command ≠ .rollback k) :
    Follows (max span minSpan).signedNanos (max allowance 1)
      (create clock span allowance estimated) [] history :=
  ⟨⟨clock, .create clock span allowance estimated, fun e he => (hrange e he).1⟩, rfl, rfl,
    hordered, hrange, hnoRollback⟩

theorem answers_of_erased {kept history' : List (Event (Command κ) (Answer κ))}
    (h : (slidingLog span allowance).Answers log history)
    (hnoRollback : ∀ e ∈ history, ∀ k, e.command ≠ .rollback k)
    (herased : Erased (fun e => ∀ k, e.command ≠ .visit k) history kept)
    (h' : (slidingLog span allowance).Answers log history')
    (hcalls : history'.map Event.call = kept.map Event.call) :
    List.Forall₂ (fun e e' => e.command ≠ .online → e' = e) kept history' := by
  have hsame := Ideal.answers_of_erased (m := slidingLog span allowance)
    (fun c => c ≠ .online ∧ ∀ k, c ≠ .rollback k) ?_ ?_
    (fun _ _ he => next_of_not_visit he) herased h h' hcalls
  · have hkept : ∀ e ∈ kept, ∀ k, e.command ≠ .rollback k :=
      fun e he => hnoRollback e (herased.sublist.subset he)
    refine (List.forall₂_and_left _ _ |>.2 ⟨hkept, hsame⟩).imp ?_
    rintro e e' ⟨hno, heq⟩ honline
    exact heq ⟨honline, hno⟩
  · rintro log clock c ⟨honline, hno⟩
    cases c with
    | rollback k => exact absurd rfl (hno k)
    | online => exact absurd rfl honline
    | _ => exact ⟨_, rfl⟩
  · intro log e e' hopen hcall
    have hcommand : e'.command = e.command := (Prod.mk.inj hcall).2
    have hnot : ∀ k, e.command ≠ .visit k := by
      intro k hk
      rw [hk] at hopen
      simp at hopen
    rw [next_of_not_visit hnot, next_of_not_visit (by rwa [hcommand])]

end Throttle.Window
