import Throttle.Middleware.Gateway
import Throttle.Proofs.RuleEffects

/-!
# When a refused key is admitted again

A refusal hints at how long the first full window stays full.  Every other window has a wait of its
own, of which the hint says nothing, so the key is admitted again exactly when all waits are over.
A hint is a signed word, and says how long the wait is unless it wraps around.
Other commands may come in between; none of them changes from when on a window has room for the key.
-/

namespace Throttle

theorem dropWhile_lt_dropWhile {now later : Int} (h : now ≤ later) (l : List Int) :
    (l.dropWhile (· < now)).dropWhile (· < later) = l.dropWhile (· < later) := by
  induction l with
  | nil => rfl
  | cons d rest ih =>
      by_cases hd : d < now
      · have hd' : d < later := by omega
        simpa [hd, hd'] using ih
      · simp [hd]

/-! ## The wait of one window -/

namespace Window

variable {κ : Type} [DecidableEq κ] {w w' : Window κ} {clock clock' : Nat} {k : κ}

theorem hasRoom_create (clock : Nat) (span : Duration) (allowance : Nat) (estimated : Option Nat)
    (clock' : Nat) (k : κ) :
    (create clock span allowance estimated : Window κ).HasRoom clock' k := by
  rw [HasRoom, live, deadlines_create]
  exact (valid_create clock span allowance estimated).allowance_pos

/-- How long a window keeps a key waiting: until the first live deadline is past, if it is full. -/
def wait (w : Window κ) (clock : Nat) (k : κ) : Nat :=
  if w.HasRoom clock k then 0 else (w.untilExpiry clock k).toNat

theorem live_later (hle : clock ≤ clock') (hfits : w.Fits clock) (hfits' : w.Fits clock') (k : κ) :
    (w.live clock k).dropWhile (· < w.elapsed clock') = w.live clock' k := by
  apply dropWhile_lt_dropWhile
  rw [hfits.inRange.elapsed_eq, hfits'.inRange.elapsed_eq]
  omega

theorem Becomes.live_later {lists : κ → List Int} (hw : w.Becomes w' lists)
    (hk : lists k = w.deadlines k ∨ lists k = w.live clock k) (hle : clock ≤ clock')
    (hfits : w.Fits clock) (hfits' : w.Fits clock') : w'.live clock' k = w.live clock' k := by
  unfold live at hk ⊢
  rw [hw.deadlines, hw.elapsed]
  rcases hk with heq | heq
  · rw [heq]
  · rw [heq]
    exact w.live_later hle hfits hfits' k

theorem Becomes.hasRoom_iff {lists : κ → List Int} (hw : w.Becomes w' lists)
    (hk : lists k = w.deadlines k ∨ lists k = w.live clock k) (hle : clock ≤ clock')
    (hfits : w.Fits clock) (hfits' : w.Fits clock') :
    w'.HasRoom clock' k ↔ w.HasRoom clock' k := by
  rw [HasRoom, HasRoom, hw.live_later hk hle hfits hfits', hw.allowance]

theorem Pruned.hint_eq (hw : Pruned clock k w w') (hfits : w.Fits clock) :
    w'.hint clock k = w.hint clock k := by
  have hk := w.update_live_eq_or clock k k
  rw [hint, hint, Becomes.live_later hw hk (Nat.le_refl _) hfits hfits, hw.elapsed]

theorem Pruned.hasRoom_iff (hw : Pruned clock k w w') (hfits : w.Fits clock) :
    w'.HasRoom clock k ↔ w.HasRoom clock k :=
  Becomes.hasRoom_iff hw (w.update_live_eq_or clock k k) (Nat.le_refl _) hfits hfits

theorem Effect.hasRoom_iff {c : Rule.Command κ} (h : Effect clock c w w') (hc : c ≠ .visit k)
    (hle : clock ≤ clock') (hfits : w.Fits clock) (hfits' : w.Fits clock') :
    w'.HasRoom clock' k ↔ w.HasRoom clock' k := by
  cases h with
  | pruned hw hlists => exact hw.hasRoom_iff (hlists k) hle hfits hfits'
  | @recorded k' hvisit hw =>
      have hne : k ≠ k' := fun heq => hc (heq ▸ hvisit)
      exact Becomes.hasRoom_iff hw (.inl (Function.update_of_ne hne _ _)) hle hfits hfits'

/-- A full window hints at its wait, if that fits. -/
theorem Valid.toNanos_hint (h : w.Valid) (hfull : ¬ w.HasRoom clock k)
    (hfits : w.HintFits clock k) : (w.hint clock k).toNanos = w.wait clock k := by
  obtain ⟨first, rest, hlive, -, hnow, hhint⟩ := h.live_of_full hfull
  rw [HintFits, untilExpiry, hlive, List.headD_cons] at hfits
  have hnanos := toNanos_retryAfter first (w.elapsed clock)
  rw [signedWord_eq (by omega) hfits] at hnanos
  rw [wait, if_neg hfull, untilExpiry, hlive, List.headD_cons, hhint]
  omega

theorem toNanos_hint_le (w : Window κ) (clock : Nat) (k : κ) :
    (w.hint clock k).toNanos ≤ 2 ^ 63 := by
  have hlt := (signedWord_bounds (w.untilExpiry clock k)).2
  have hnanos := toNanos_retryAfter ((w.live clock k).headD (w.elapsed clock)) (w.elapsed clock)
  rw [← untilExpiry] at hnanos
  rw [hint]
  omega

theorem Ordered.hasRoom_iff_wait (h : w.Ordered clock) (hle : clock ≤ clock')
    (hfits : w.Fits clock) (hfits' : w.Fits clock') :
    w.HasRoom clock' k ↔ clock + w.wait clock k ≤ clock' := by
  have hlater := w.live_later hle hfits hfits' k
  by_cases hroom : w.HasRoom clock k
  · have hlength := (List.dropWhile_sublist (l := w.live clock k)
      (· < w.elapsed clock')).length_le
    rw [hlater] at hlength
    rw [HasRoom] at hroom
    simp only [HasRoom, wait, hroom, if_true]
    omega
  · obtain ⟨first, rest, hlive, hrest, hnow, -⟩ := h.valid.live_of_full hroom
    have hwait : w.wait clock k = (first - w.elapsed clock + 1).toNat := by
      rw [wait, if_neg hroom, untilExpiry, hlive, List.headD_cons]
    rw [HasRoom, hlive, List.length_cons] at hroom
    rw [hlive] at hlater
    rw [HasRoom, ← hlater, hwait, hfits.inRange.elapsed_eq]
    rw [hfits.inRange.elapsed_eq] at hnow
    have helapsed := hfits'.inRange.elapsed_eq
    -- There is room as soon as the first deadline is past, and not before.
    by_cases hpast : first < w.elapsed clock'
    · have hlength := (List.dropWhile_sublist (l := rest) (· < w.elapsed clock')).length_le
      simp only [List.dropWhile_cons, hpast, decide_true, if_true]
      omega
    · simp only [List.dropWhile_cons, hpast, decide_false, Bool.false_eq_true, if_false,
        List.length_cons]
      omega

end Window

/-! ## The header -/

theorem Middleware.LimitError.toNat_wholeSeconds {d : Duration} (h : d.toNanos ≤ 2 ^ 63) :
    (wholeSeconds d).toNat = max (d.secs.toNat + if (d.nanos : Nat) = 0 then 0 else 1) 1 := by
  have hmax : ∀ a b : UInt64, (max a b).toNat = max a.toNat b.toNat := by
    intro a b
    change (if a ≤ b then b else a).toNat = _
    split <;> simp only [UInt64.le_iff_toNat_le] at * <;> omega
  have hsecs : d.secs.toNat < 2 ^ 64 - 1 := by
    rw [Duration.toNanos] at h
    omega
  rw [wholeSeconds, hmax, UInt64.toNat_one]
  split
  · rw [UInt64.add_zero, Nat.add_zero]
  · rw [UInt64.toNat_add, UInt64.toNat_one, Nat.mod_eq_of_lt (by omega)]

theorem Middleware.LimitError.toNanos_le_wholeSeconds {d : Duration} (h : d.toNanos ≤ 2 ^ 63) :
    d.toNanos ≤ (wholeSeconds d).toNat * 1000000000 := by
  have hnanos := d.nanos.isLt
  rw [toNat_wholeSeconds h, Duration.toNanos]
  split <;> omega

/-! ## A rule between two visits of a key -/

namespace Rule

variable {κ : Type} [DecidableEq κ] {r r' : Rule κ} {clock clock' : Nat} {k : κ} {c : Command κ}
  {a : Answer} {mode : RuleMode} {ws ws' : List (Window κ)} {v : Verdict}
  {history rest : List (Event (Command κ) Answer)}

def HasRoom (r : Rule κ) (clock : Nat) (k : κ) : Prop := ∀ w ∈ r.windows, w.HasRoom clock k

theorem visit_admitted_iff (hvalid : ∀ w ∈ r.windows, w.Valid) :
    (r.visit clock k).2 = .admitted ↔ r.HasRoom clock k :=
  (asked_visit clock k hvalid).admitted_iff

theorem Asked.exists_wait_eq {d : Duration} (h : Asked mode clock k ws ws' (.refused d))
    (hws : ∀ w ∈ ws, w.Ordered clock ∧ w.Fits clock) :
    ∃ w ∈ ws', w.hint clock k = d ∧ (w.HintFits clock k → w.wait clock k = d.toNanos) := by
  generalize hv : Verdict.refused d = v at h
  induction h with
  | nil => contradiction
  | full hfull hpruned =>
      cases hv
      obtain ⟨hordered, hfits⟩ := hws _ List.mem_cons_self
      have hhint := Window.Pruned.hint_eq hpruned hfits
      refine ⟨_, List.mem_cons_self, hhint, fun hhintFits => ?_⟩
      rw [← (hpruned.valid hordered.valid).toNanos_hint _ hhintFits, hhint]
      rwa [Window.Pruned.hasRoom_iff hpruned hfits]
  | admitted _ _ _ _ => contradiction
  | refused _ _ _ ih =>
      obtain ⟨w, hw, hwait⟩ := ih (fun w hw => hws w (List.mem_cons_of_mem _ hw)) hv
      exact ⟨w, List.mem_cons_of_mem _ hw, hwait⟩

theorem hasRoom_of_step (h : r.Orderly (⟨clock, c, a⟩ :: rest)) (hstep : Step clock r c r' a)
    (hc : c ≠ .visit k) {e : Event (Command κ) Answer} (he : e ∈ rest) :
    r'.HasRoom e.clock k ↔ r.HasRoom e.clock k := by
  obtain ⟨ws, heffect, hwindows⟩ := hstep.effect fun w hw => (h.now w hw).1.valid
  have hle := ((List.pairwise_cons.1 h.timely).1 e he).1
  have hlater := h.fits e (List.mem_cons_of_mem _ he)
  have hadded : ∀ w ∈ c.added clock, w.HasRoom e.clock k := by
    cases c <;> simp [Command.added, Window.hasRoom_create]
  rw [HasRoom, hwindows, List.forall_mem_append, and_iff_left hadded, HasRoom]
  have hfits : ∀ w ∈ r.windows, w.Fits clock ∧ w.Fits e.clock :=
    fun w hw => ⟨(h.now w hw).2, hlater w hw⟩
  refine forall_mem_iff_of_forall₂ ?_ ((List.forall₂_and_left _ _).2 ⟨hfits, heffect⟩)
  rintro w w' ⟨⟨hnow, hthen⟩, hww'⟩
  exact hww'.hasRoom_iff hc hle hnow hthen

/-- Commands that do not visit a key leave open, or closed, what is so for it later on. -/
theorem hasRoom_of_runs (hruns : Runs Step r history r') {e : Event (Command κ) Answer}
    (h : r.Orderly (history ++ [e])) (hsilent : ∀ e ∈ history, e.command ≠ .visit k) :
    r'.HasRoom e.clock k ↔ r.HasRoom e.clock k := by
  induction hruns with
  | nil => exact Iff.rfl
  | cons hstep _ ih =>
      rw [ih (h.step hstep) fun e he => hsilent e (List.mem_cons_of_mem _ he)]
      exact hasRoom_of_step h hstep (hsilent _ List.mem_cons_self) (by simp)

end Rule

/-! ## Calls through a rule layer -/

namespace Middleware.Shared

variable {s s' : Shared} {t t' : Nat} {request : Request} {outcome : Poll}
  {i : Nat} {extract : KeyExtractor} {fallback : Option Key} {layers : List Layer} {k : Key}
  {d : Duration}

theorem visit_of_call (hkey : callKey? extract fallback request = some k)
    (h : call t request outcome (.perKey i extract fallback :: layers) s =
      (.rejected (some (.rateLimited d)), s')) :
    (s.rules i).visit t k = (s'.rules i, .refused d) := by
  simp only [call, hkey] at h
  cases hvisit : (s.rules i).visit t k with
  | mk rule v =>
      simp only [hvisit] at h
      cases v with
      | admitted => simp at h
      | refused d' =>
          obtain ⟨hresponse, rfl⟩ := Prod.mk.inj h
          simpa using hresponse

/--
After a call that was refused with a hint, the next visit of its key is admitted exactly if no
window is still waiting: the visit comes no earlier than the wait of every window after the refused
call, whatever came in between.  The hint is that of one of the windows, and as long as its wait if
that fits a signed word; the header that tells it in whole seconds is no shorter.
-/
theorem admitted_again_iff {mode : RuleMode} {r : Rule Key}
    {past later : List (Event (Rule.Command Key) Rule.Answer)}
    (hpast : Runs Rule.Step ⟨[], mode⟩ past (s.rules i))
    (hkey : callKey? extract fallback request = some k)
    (hrefused : call t request outcome (.perKey i extract fallback :: layers) s =
      (.rejected (some (.rateLimited d)), s'))
    (hlater : Runs Rule.Step (s'.rules i) later r) (hsilent : ∀ e ∈ later, e.command ≠ .visit k)
    (htimely : Rule.Timely (past ++ ⟨t, .visit k, .verdict (.refused d)⟩ ::
      (later ++ [⟨t', .visit k, .verdict (r.visit t' k).2⟩]))) :
    ((r.visit t' k).2 = .admitted ↔ ∀ w ∈ (s'.rules i).windows, t + w.wait t k ≤ t') ∧
    (∃ w ∈ (s'.rules i).windows, w.hint t k = d ∧ (w.HintFits t k → w.wait t k = d.toNanos)) ∧
    ∀ seconds, (LimitError.rateLimited d).retryAfterHeader? = some seconds →
      d.toNanos ≤ seconds.toNat * 1000000000 := by
  have hvisit := visit_of_call hkey hrefused
  have hstep : Rule.Step t (s.rules i) (.visit k) ((s.rules i).visit t k).1 _ := .visit k
  rw [hvisit] at hstep
  have horderly := (Rule.orderly_empty mode htimely).runs hpast
  have hrest := horderly.step hstep
  have hend := hrest.runs hlater
  have hvalid : ∀ w ∈ (s.rules i).windows, w.Valid := fun w hw => (horderly.now w hw).1.valid
  have hasked := Rule.asked_visit t k hvalid
  rw [hvisit] at hasked
  have hwait := hasked.exists_wait_eq horderly.now
  refine ⟨?_, hwait, ?_⟩
  · have hlast := List.mem_append_right later
      (List.mem_singleton_self
        (⟨t', .visit k, .verdict (r.visit t' k).2⟩ : Event (Rule.Command Key) Rule.Answer))
    have hle' := ((List.pairwise_cons.1 horderly.timely).1 _ hlast).1
    rw [Rule.visit_admitted_iff fun w hw => (hend.now w hw).1.valid,
      Rule.hasRoom_of_runs hlater hrest hsilent]
    refine forall₂_congr fun w hw => ?_
    obtain ⟨w₀, hw₀, heffect⟩ := exists_of_forall₂ (hasked.effect hvalid) hw
    have hfits := heffect.fits_iff.2 (horderly.now w₀ hw₀).2
    exact (horderly.ordered_after hstep w hw).hasRoom_iff_wait hle' hfits
      (hrest.fits _ hlast w hw)
  · rintro _ ⟨rfl⟩
    obtain ⟨w, -, rfl, -⟩ := hwait
    exact LimitError.toNanos_le_wholeSeconds (w.toNanos_hint_le t k)

theorem two_windows_still_waiting :
    let commands : List (Nat × Rule.Command Key) := [(0, .addWindow (.ofSecs 1) 1 none),
      (0, .addWindow (.ofSecs 10) 1 none), (0, .visit (.uint 7))]
    let rule := ((⟨[], .independent⟩ : Rule Key).run commands).1
    let refused := call 0 .anonymous (.ok "") [.rule (fun _ => some (.uint 7)) none]
      ⟨.create 1 .bestEffort, fun _ => rule, 0, 0⟩
    refused.1 = .rejected (some (.rateLimited ⟨1, 1⟩)) ∧
      refused.2.rule.windows.map (·.wait 0 (.uint 7)) = [1000000001, 10000000001] ∧
      ((refused.2.rule.visit 2000000000 (.uint 7)).2 = .admitted ↔
        ∀ w ∈ refused.2.rule.windows, 0 + w.wait 0 (.uint 7) ≤ 2000000000) := by
  intro commands rule refused
  have hrefused : refused.1 = .rejected (some (.rateLimited ⟨1, 1⟩)) := by decide +kernel
  refine ⟨hrefused, by decide +kernel, ?_⟩
  have hpast := Rule.runs_history (⟨[], .independent⟩ : Rule Key) commands
  exact (admitted_again_iff hpast rfl (Prod.ext hrefused rfl) (.nil _) (by simp)
    (by decide +kernel)).1

/-- Two seconds honour the header of a refusal that the second window is bound to repeat. -/
theorem hint_of_first_window_only :
    ([.independent, .transactional].map fun mode =>
      ((Gateway.create (.create 1 .bestEffort)
        ⟨[.create 0 (.ofSecs 1) 1 none, .create 0 (.ofSecs 10) 1 none], mode⟩
        [.rule (fun _ => some (.uint 7)) none]).run
      [(0, .send 0 .anonymous (.ok "")), (0, .send 0 .anonymous (.ok "")),
        (2000000000, .send 0 .anonymous (.ok ""))]).2) =
    .replicate 2 [.result (.ok ""), .result (.failed (.limit (.rateLimited ⟨1, 1⟩))),
      .result (.failed (.limit (.rateLimited ⟨8, 1⟩)))] ∧
    LimitError.wholeSeconds ⟨1, 1⟩ = 2 := by
  decide +kernel

end Middleware.Shared

end Throttle
