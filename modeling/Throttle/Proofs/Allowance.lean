import Throttle.Proofs.Admissions
import Throttle.Proofs.RuleEffects

/-!
# No rule admits more than its windows allow

A rule admits a visit only if every window has room, and then every window records it.  In
independent mode a window may record more than the rule admits, and a window whose clock has left
the range of signed words may count a visit for too long, so a window is only known to remember the
visits that still count.  That is enough for the cap: it needs neither mode and no bound on the
clock, only that the clock does not go back and that no deadline overflows.
-/

namespace Throttle

theorem sublist_dropWhile {α : Type} {p : α → Bool} {l l' : List α} (h : l.Sublist l')
    (hl : ∀ a ∈ l, p a = false) : l.Sublist (l'.dropWhile p) := by
  induction h with
  | slnil => exact .slnil
  | @cons l l' a h ih =>
      rw [List.dropWhile_cons]
      split
      · exact ih hl
      · exact h.cons a
  | @cons_cons l l' a h ih =>
      rw [List.dropWhile_cons, hl a List.mem_cons_self]
      exact h.cons_cons a

/-! ## What a window remembers -/

namespace Window

variable {κ : Type} {w w' : Window κ} {log : VisitLog κ} {clock clock' s : Nat} {k : κ}

/-- The time since the anchor may wrap around, but it never gains on the clock. -/
theorem elapsed_le (w : Window κ) (h : s ≤ clock) :
    w.elapsed clock ≤ w.elapsed s + (clock - s) := by
  have hlt := (w.elapsed_bounds clock).2
  have hge := (w.elapsed_bounds s).1
  obtain ⟨q, hclock⟩ := exists_signedWord_add (clock - w.anchor : Nat)
  obtain ⟨q', hs⟩ := exists_signedWord_add (s - w.anchor : Nat)
  rw [← elapsed] at hclock hs
  omega

variable [DecidableEq κ]

structure Remembers (w : Window κ) (log : VisitLog κ) (clock : Nat) : Prop where
  valid : w.Valid
  within : ∀ k, ∀ s ∈ log.instants k, s ≤ clock ∧ w.DueFits s
  recent : ∀ k, ((log.recent w.span.signedNanos clock k).map w.due).Sublist (w.deadlines k)

theorem Valid.remembers_nil (h : w.Valid) (clock : Nat) : w.Remembers [] clock := by
  refine ⟨h, ?_, ?_⟩ <;> simp [VisitLog.instants, VisitLog.recent]

namespace Remembers

theorem advance (h : w.Remembers log clock) (hle : clock ≤ clock') : w.Remembers log clock' := by
  refine ⟨h.valid, fun k s hs => (h.within k s hs).imp_left (Nat.le_trans · hle), ?_⟩
  intro k
  rw [← VisitLog.recent_recent hle]
  exact (List.filter_sublist.map _).trans (h.recent k)

theorem sublist_live (h : w.Remembers log clock) (k : κ) :
    ((log.recent w.span.signedNanos clock k).map w.due).Sublist (w.live clock k) := by
  apply sublist_dropWhile (h.recent k)
  rw [List.forall_mem_map]
  intro s hs
  obtain ⟨hlog, hcounts⟩ := VisitLog.mem_recent.1 hs
  obtain ⟨hle, hfits⟩ := h.within k s hlog
  have helapsed := w.elapsed_le hle
  rw [decide_eq_false_iff_not, hfits.due_eq]
  omega

theorem length_recent_lt (h : w.Remembers log clock) (hroom : w.HasRoom clock k) :
    (log.recent w.span.signedNanos clock k).length < w.allowance := by
  have hlength := (h.sublist_live k).length_le
  rw [List.length_map] at hlength
  exact Nat.lt_of_le_of_lt hlength hroom

theorem of_becomes {lists : κ → List Int} (h : w.Valid) (hw : w.Becomes w' lists)
    (hwithin : ∀ k, ∀ s ∈ log.instants k, s ≤ clock ∧ w.DueFits s)
    (hlists : ∀ k, ((log.recent w.span.signedNanos clock k).map w.due).Sublist (lists k)) :
    w'.Remembers log clock := by
  refine ⟨hw.valid h, ?_, ?_⟩
  · simpa only [DueFits, hw.elapsed, hw.span] using hwithin
  · intro k
    rw [hw.deadlines, hw.span, hw.due]
    exact hlists k

theorem effect {c : Rule.Command κ} (h : w.Remembers log clock) (hw : Effect clock c w w') :
    w'.Remembers log clock := by
  cases hw with
  | pruned hbecomes hlists =>
      apply of_becomes h.valid hbecomes h.within
      intro k
      rcases hlists k with heq | heq
      · rw [heq]
        exact h.recent k
      · rw [heq]
        exact h.sublist_live k
  | @recorded k _ hrecorded =>
      apply of_becomes h.valid hrecorded h.within
      intro k'
      rw [Function.update_apply]
      split
      next heq =>
        subst heq
        exact (h.sublist_live k').trans (List.sublist_append_left _ _)
      next => exact h.recent k'

theorem record (h : w.Remembers log clock) (hfits : w.DueFits clock)
    (hw : Recorded clock k w w') :
    w'.Remembers (log ++ [(clock, k)]) clock := by
  apply of_becomes h.valid hw
  · intro k' s hs
    rw [VisitLog.instants_append] at hs
    split at hs
    · rcases List.mem_append.1 hs with hs | hs
      · exact h.within k' s hs
      · rw [List.mem_singleton.1 hs]
        exact ⟨Nat.le_refl _, hfits⟩
    · exact h.within k' s hs
  · intro k'
    rw [VisitLog.recent, VisitLog.instants_append, Function.update_apply]
    split
    next heq =>
      subst heq
      rw [List.filter_append, List.map_append]
      exact (h.sublist_live k').append (List.filter_sublist.map w.due)
    next => exact h.recent k'

end Remembers

end Window

/-! ## Runs of a rule -/

namespace Rule

variable {κ : Type} [DecidableEq κ] {log : VisitLog κ}
  {history : List (Event (Command κ) Answer)} {r r' : Rule κ} {clock : Nat} {k : κ}
  {c : Command κ} {a : Answer} {mode : RuleMode} {ws ws' : List (Window κ)} {w : Window κ}

theorem Asked.recorded (h : Asked mode clock k ws ws' .admitted) :
    List.Forall₂ (fun w w' => w.HasRoom clock k ∧ Window.Recorded clock k w w') ws ws' := by
  generalize hv : Verdict.admitted = v at h
  induction h with
  | nil => exact .nil
  | admitted hroom hrecorded _ ih => exact .cons ⟨hroom, hrecorded⟩ (ih hv)
  | _ => contradiction

theorem Step.valid (hstep : Step clock r c r' a) (hvalid : ∀ w ∈ r.windows, w.Valid) :
    ∀ w ∈ r'.windows, w.Valid := by
  obtain ⟨ws, heffect, hwindows⟩ := hstep.effect hvalid
  rw [hwindows, List.forall_mem_append]
  constructor
  · intro w' hw'
    obtain ⟨w, hw, hww'⟩ := exists_of_forall₂ heffect hw'
    obtain ⟨lists, hbecomes⟩ := hww'.becomes
    exact hbecomes.valid (hvalid w hw)
  · cases c <;> simp [Command.added, Window.valid_create]

theorem valid_of_runs (hruns : Runs Step r history r') (hvalid : ∀ w ∈ r.windows, w.Valid) :
    ∀ w ∈ r'.windows, w.Valid := by
  induction hruns with
  | nil => exact hvalid
  | cons hstep _ ih => exact ih (hstep.valid hvalid)

theorem Step.recorded (hstep : Step clock r (.visit k) r' (.verdict .admitted))
    (hvalid : ∀ w ∈ r.windows, w.Valid) :
    List.Forall₂ (fun w w' => w.HasRoom clock k ∧ Window.Recorded clock k w w')
      r.windows r'.windows :=
  (hstep.asked hvalid).recorded

/-- What becomes of one window in a step: it still remembers, and it had room if it was needed. -/
theorem Step.remembers (hstep : Step clock r c r' a) (hvalid : ∀ w ∈ r.windows, w.Valid)
    (hw : w ∈ r.windows) (hfits : w.DueFits clock) (h : w.Remembers log clock) :
    Spares w.span.signedNanos w.allowance log ⟨clock, c, a⟩ ∧
      ∃ w' ∈ r'.windows, (∃ lists, w.Becomes w' lists) ∧
        w'.Remembers (log ++ (admission? ⟨clock, c, a⟩).toList) clock := by
  cases hadmission : admission? ⟨clock, c, a⟩ with
  | none =>
      refine ⟨by simp [Spares, hadmission], ?_⟩
      obtain ⟨ws, heffect, hwindows⟩ := hstep.effect hvalid
      obtain ⟨w', hw', hww'⟩ := exists_of_forall₂ heffect.flip hw
      obtain ⟨lists, hbecomes⟩ := hww'.becomes
      refine ⟨w', hwindows ▸ List.mem_append_left _ hw', ⟨_, hbecomes⟩, ?_⟩
      simpa using h.effect hww'
  | some v =>
      obtain ⟨t, k⟩ := v
      obtain ⟨rfl, rfl, rfl⟩ := Event.mk.inj (admission?_eq_some.1 hadmission)
      obtain ⟨w', hw', hroom, hrecorded⟩ := exists_of_forall₂ (hstep.recorded hvalid).flip hw
      refine ⟨?_, w', hw', ⟨_, hrecorded⟩, h.record hfits hrecorded⟩
      rintro s k' hv
      cases hadmission.symm.trans hv
      exact h.length_recent_lt hroom

theorem throughout_of_runs (hruns : Runs Step r history r')
    (hordered : history.Pairwise fun e e' => e.clock ≤ e'.clock)
    (hvalid : ∀ w ∈ r.windows, w.Valid) (hw : w ∈ r.windows) (h : w.Remembers log clock)
    (hle : ∀ e ∈ history, clock ≤ e.clock) (hfits : ∀ e ∈ history, w.DueFits e.clock) :
    Throughout (Spares w.span.signedNanos w.allowance) log history := by
  induction hruns generalizing w log clock with
  | nil => exact throughout_nil
  | @cons r r₁ r' e rest hstep _ ih =>
      obtain ⟨hlater, hrest⟩ := List.pairwise_cons.1 hordered
      obtain ⟨hhead, htail⟩ := List.forall_mem_cons.1 hfits
      have hnow := h.advance (hle e List.mem_cons_self)
      obtain ⟨hspares, w', hw', ⟨lists, hbecomes⟩, hremembers⟩ :=
        hstep.remembers hvalid hw hhead hnow
      rw [← hbecomes.span, ← hbecomes.allowance] at hspares ⊢
      refine throughout_cons.2
        ⟨hspares, ih hrest (hstep.valid hvalid) hw' hremembers hlater fun e' he' => ?_⟩
      exact hbecomes.dueFits.2 (htail e' he')

end Rule

end Throttle
