import Throttle.Proofs.Allowance
import Throttle.Proofs.ExactHint

/-!
# No visit is admitted before its hint has passed

A refusal comes from a window that is full for the key, and its hint is the time until the first
deadline there has passed.  Until then no command lets the window go: a visit of the key stops at it
or before it, whatever it records in the windows before it and whether or not that is taken back,
and pruning and sweeps find nothing to drop at the front.  `StaysFull` is what one command does to
one window; windows that are added and changes of mode do not matter.  Nor does it matter how the
clock ran before the refusal, or what wraps around: the time in a window never gains on the clock,
and a hint that does not fit its word comes out too short.
-/

namespace Throttle

namespace Window

variable {κ : Type} [DecidableEq κ] {w w' w'' : Window κ} {clock : Nat} {k : κ} {first : Int}

/-! ## One window -/

def StaysFull (clock : Nat) (w w' : Window κ) : Prop :=
  w'.elapsed = w.elapsed ∧
    ∀ k first, w.Full k first → w.elapsed clock ≤ first → w'.Full k first

theorem staysFull_refl (clock : Nat) (w : Window κ) : StaysFull clock w w :=
  ⟨rfl, fun _ _ h _ => h⟩

theorem Becomes.staysFull {lists : κ → List Int} (hw : w.Becomes w' lists)
    (hlists : ∀ k, lists k = w.deadlines k ∨ lists k = w.live clock k) :
    StaysFull clock w w' := by
  refine ⟨hw.elapsed, ?_⟩
  intro k first hfull hnow
  apply hfull.of_same hw
  rw [hw.deadlines]
  rcases hlists k with heq | heq
  · exact heq
  · rw [heq, hfull.live_eq hnow]

theorem Pruned.staysFull (hw : Pruned clock k w w') : StaysFull clock w w' :=
  Becomes.staysFull hw (w.update_live_eq_or clock k)

/-- A window that records a visit had room, so it was not full for that key. -/
theorem Recorded.staysFull (hw : Recorded clock k w w') (hroom : w.HasRoom clock k) :
    StaysFull clock w w' := by
  refine ⟨hw.elapsed, ?_⟩
  intro k' first hfull hnow
  have hne : k' ≠ k := by
    rintro rfl
    exact hfull.not_hasRoom hnow hroom
  apply hfull.of_same hw
  rw [hw.deadlines, Function.update_of_ne hne]

theorem Effect.staysFull {c : Rule.Command κ} (hw : Effect clock c w w')
    (hc : ∀ k, c ≠ .visit k) : StaysFull clock w w' := by
  cases hw with
  | pruned hbecomes hlists => exact hbecomes.staysFull hlists
  | recorded heq _ => exact absurd heq (hc _)

end Window

/-! ## Rules -/

namespace Rule

variable {κ : Type} [DecidableEq κ] {r r' : Rule κ} {clock : Nat} {k : κ} {c : Command κ}
  {a : Answer} {mode : RuleMode} {ws ws' : List (Window κ)} {v : Verdict} {w : Window κ}
  {first : Int} {history : List (Event (Command κ) Answer)}

theorem Asked.staysFull (h : Asked mode clock k ws ws' v) :
    List.Forall₂ (Window.StaysFull clock) ws ws' := by
  induction h with
  | nil => exact .nil
  | full _ hpruned =>
      refine .cons (Window.Pruned.staysFull hpruned) (List.forall₂_same.2 ?_)
      exact fun w _ => w.staysFull_refl clock
  | admitted hroom hrecorded _ ih => exact .cons (Window.Recorded.staysFull hrecorded hroom) ih
  | refused hroom hback _ ih =>
      refine .cons ?_ ih
      cases mode with
      | independent => exact Window.Recorded.staysFull hback hroom
      | transactional => exact Window.Pruned.staysFull hback

/-- The window that refuses is left full, for no less than the hint says. -/
theorem Asked.exists_full {d : Duration} (h : Asked mode clock k ws ws' (.refused d))
    (hvalid : ∀ w ∈ ws, w.Valid) :
    ∃ w' ∈ ws', ∃ first, w'.Full k first ∧ w'.elapsed clock ≤ first ∧ 1 ≤ d.toNanos ∧
      (d.toNanos : Int) ≤ first - w'.elapsed clock + 1 := by
  generalize hv : Verdict.refused d = v at h
  induction h with
  | nil => contradiction
  | @full w w' ws hfull hpruned =>
      cases hv
      obtain ⟨first, hleft, -, hnow, hhint⟩ := hpruned.full (hvalid _ List.mem_cons_self) hfull
      have hnanos := Window.toNanos_retryAfter first (w.elapsed clock)
      refine ⟨_, List.mem_cons_self, first, hleft, ?_, ?_, ?_⟩
      · rwa [hpruned.elapsed]
      · rw [hhint]
        omega
      · rw [hhint, hpruned.elapsed]
        exact Window.toNanos_retryAfter_le hnow
  | admitted _ _ _ _ => contradiction
  | refused _ _ _ ih =>
      obtain ⟨w', hw', hleft⟩ := ih (fun w hw => hvalid w (List.mem_cons_of_mem _ hw)) hv
      exact ⟨w', List.mem_cons_of_mem _ hw', hleft⟩

theorem Step.staysFull (hstep : Step clock r c r' a) (hvalid : ∀ w ∈ r.windows, w.Valid)
    (hw : w ∈ r.windows) : ∃ w' ∈ r'.windows, Window.StaysFull clock w w' := by
  have hall : ∃ ws, List.Forall₂ (Window.StaysFull clock) r.windows ws ∧
      r'.windows = ws ++ c.added clock := by
    by_cases hc : ∀ k, c ≠ .visit k
    · obtain ⟨ws, heffect, hwindows⟩ := hstep.effect hvalid
      exact ⟨ws, heffect.imp fun _ _ hw => hw.staysFull hc, hwindows⟩
    · obtain ⟨k, rfl⟩ := not_forall_not.1 hc
      cases hstep with
      | visit =>
          exact ⟨_, (asked_visit clock k hvalid).staysFull, (List.append_nil _).symm⟩
  obtain ⟨ws, hstays, hwindows⟩ := hall
  obtain ⟨w', hw', hww'⟩ := exists_of_forall₂ hstays.flip hw
  exact ⟨w', hwindows ▸ List.mem_append_left _ hw', hww'⟩

theorem full_of_runs (hruns : Runs Step r history r') (hvalid : ∀ w ∈ r.windows, w.Valid)
    (hw : w ∈ r.windows) (hfull : w.Full k first)
    (hnow : ∀ e ∈ history, w.elapsed e.clock ≤ first) :
    ∃ w' ∈ r'.windows, w'.Full k first ∧ w'.elapsed = w.elapsed := by
  induction hruns generalizing w with
  | nil => exact ⟨w, hw, hfull, rfl⟩
  | cons hstep _ ih =>
      obtain ⟨hhead, hrest⟩ := List.forall_mem_cons.1 hnow
      obtain ⟨w₁, hw₁, helapsed, hstays⟩ := hstep.staysFull hvalid hw
      rw [← helapsed] at hrest ⊢
      exact ih (hstep.valid hvalid) hw₁ (hstays k first hfull hhead) hrest

theorem Step.refused_of_full (hstep : Step clock r (.visit k) r' a)
    (hvalid : ∀ w ∈ r.windows, w.Valid) (hw : w ∈ r.windows) (hfull : w.Full k first)
    (hnow : w.elapsed clock ≤ first) : ∃ d, a = .verdict (.refused d) := by
  cases hstep with
  | visit =>
      cases hverdict : (r.visit clock k).2 with
      | refused d => exact ⟨d, rfl⟩
      | admitted =>
          have hroom := (visit_admitted_iff hvalid).1 hverdict w hw
          exact absurd hroom (hfull.not_hasRoom hnow)

/--
A key that is refused at `t` with the hint `d` is not let in before `t + d`, whatever commands come
in between and wherever the clock had been before, as long as it does not go back from `t` on.
-/
theorem refused_until_hint {past later : List (Event (Command κ) Answer)} {t : Nat} {d : Duration}
    (hruns : Runs Step ⟨[], mode⟩ (past ++ ⟨t, .visit k, .verdict (.refused d)⟩ :: later) r)
    (hforward : (⟨t, .visit k, .verdict (.refused d)⟩ :: later).Pairwise
      fun e e' => e.clock ≤ e'.clock) :
    1 ≤ d.toNanos ∧ ∀ e ∈ later, e.command = .visit k → e.clock < t + d.toNanos →
      ∃ d', e.answer = .verdict (.refused d') := by
  obtain ⟨r₀, r₁, hpast, hstep, hlater⟩ := hruns.exists_at
  have hvalid : ∀ w ∈ r₀.windows, w.Valid := valid_of_runs hpast (by simp)
  obtain ⟨w, hw, first, hfull, hnow, hpos, hnanos⟩ := (hstep.asked hvalid).exists_full hvalid
  refine ⟨hpos, ?_⟩
  intro e he hvisit hearly
  obtain ⟨before, after, rfl⟩ := List.append_of_mem he
  obtain ⟨hfrom, hordered⟩ := List.pairwise_cons.1 hforward
  -- The time in the window gains no more than the clock, so the first deadline is still ahead.
  have hwaits : ∀ e' ∈ before ++ e :: after, e'.clock ≤ e.clock →
      w.elapsed e'.clock ≤ first := by
    intro e' he' hle
    have hafter : t ≤ e'.clock := hfrom e' he'
    have helapsed := w.elapsed_le hafter
    omega
  obtain ⟨r₂, r₃, hbefore, hlast, -⟩ := hlater.exists_at
  have hvalid₁ := hstep.valid hvalid
  obtain ⟨w₂, hw₂, hfull₂, helapsed⟩ := full_of_runs hbefore hvalid₁ hw hfull fun e' he' =>
    hwaits e' (List.mem_append_left _ he')
      ((List.pairwise_append.1 hordered).2.2 e' he' e List.mem_cons_self)
  have hnow₂ := hwaits e he (Nat.le_refl _)
  rw [← helapsed] at hnow₂
  rw [hvisit] at hlast
  exact hlast.refused_of_full (valid_of_runs hbefore hvalid₁) hw₂ hfull₂ hnow₂

/--
The second window refuses while the clock is before its anchor, so it stays full for a while longer
than the hint says.  The mode changes in between, and a window is added whose span wraps around.
-/
theorem refused_through_changes :
    let commands : List (Nat × Command Nat) := [(0, .addWindow (.ofSecs 1) 2 none),
      (9, .addWindow (.ofSecs 10) 1 none), (5, .visit 7), (6, .visit 7),
      (7, .setMode .transactional), (8, .addWindow ⟨18446744073, 709551611⟩ 1 none),
      (5000000000, .sweep), (6000000000, .visit 8), (9000000000, .visit 7),
      (10000000006, .visit 7)]
    let past : List (Event (Command Nat) Answer) := [⟨0, .addWindow (.ofSecs 1) 2 none, .done⟩,
      ⟨9, .addWindow (.ofSecs 10) 1 none, .done⟩, ⟨5, .visit 7, .verdict .admitted⟩]
    let refusal : Event (Command Nat) Answer := ⟨6, .visit 7, .verdict (.refused ⟨10, 1⟩)⟩
    let last : Event (Command Nat) Answer := ⟨10000000006, .visit 7, .verdict (.refused ⟨0, 4⟩)⟩
    let later : List (Event (Command Nat) Answer) := [⟨7, .setMode .transactional, .done⟩,
      ⟨8, .addWindow ⟨18446744073, 709551611⟩ 1 none, .done⟩, ⟨5000000000, .sweep, .done⟩,
      ⟨6000000000, .visit 8, .verdict .admitted⟩,
      ⟨9000000000, .visit 7, .verdict (.refused ⟨1, 10⟩)⟩, last]
    (⟨[], .independent⟩ : Rule Nat).history commands = past ++ refusal :: later ∧
      last.clock + 1 = refusal.clock + Duration.toNanos ⟨10, 1⟩ ∧
      ∃ d', last.answer = .verdict (.refused d') := by
  intro commands past refusal last later
  have hhistory : (⟨[], .independent⟩ : Rule Nat).history commands = past ++ refusal :: later := by
    decide +kernel
  have hruns := runs_history (⟨[], .independent⟩ : Rule Nat) commands
  rw [hhistory] at hruns
  have hrefused := (refused_until_hint hruns (by decide +kernel)).2
  exact ⟨hhistory, by decide, hrefused last (by simp [later]) rfl (by decide)⟩

end Rule

end Throttle
