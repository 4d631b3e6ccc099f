import Mathlib.Order.Bounds.Basic
import Throttle.Proofs.Conservation
import Throttle.Proofs.RetryHint

/-!
# The hint of a single window is exact

A refused key finds its ring full, and the hint names the instant just after the first deadline in
it.  Pruning stops at the first deadline that is live, so up to that instant the ring stays as it
is, whatever is asked of the window, and from then on it has room.  The deadlines behind the first
one do not matter: they may be out of order because the clock went back before the refusal.
-/

namespace Throttle

theorem Middleware.LimitError.isLeast_wholeSeconds {d : Duration} (h : d.toNanos ≤ 2 ^ 63) :
    IsLeast {n : Nat | 1 ≤ n ∧ d.toNanos ≤ n * 1000000000} (wholeSeconds d).toNat := by
  have hnanos := d.nanos.isLt
  rw [toNat_wholeSeconds h, Duration.toNanos]
  refine ⟨⟨?_, ?_⟩, ?_⟩
  · omega
  · split <;> omega
  · rintro n ⟨hpos, hn⟩
    split <;> omega

namespace Window

variable {κ : Type} {w w' : Window κ} {clock : Nat}

/-- Neither the time since the anchor nor the deadline of a visit overflows its signed word. -/
def NoOverflow (w : Window κ) (clock : Nat) : Prop :=
  clock < w.anchor + 2 ^ 63 ∧ w.DueFits clock

instance (w : Window κ) (clock : Nat) : Decidable (w.NoOverflow clock) :=
  inferInstanceAs (Decidable (_ ∧ _))

/-- A reading before the anchor counts as the anchor. -/
theorem NoOverflow.elapsed_eq (h : w.NoOverflow clock) :
    w.elapsed clock = ((clock - w.anchor : Nat) : Int) := by
  have hlt := h.1
  exact signedWord_eq (by omega) (by omega)

theorem signedNanos_le (d : Duration) : d.signedNanos ≤ d.toNanos := by
  by_cases h : d.toNanos < 2 ^ 63
  · rw [Duration.signedNanos_eq h]
  · have hlt := d.signedNanos_bounds.2
    omega

variable [DecidableEq κ] {c : Command κ} {a : Answer κ} {k : κ} {first : Int}
  {history before after : List (Event (Command κ) (Answer κ))}

/-! ## One step and one key -/

theorem Step.of_visit (hstep : Step clock w (.visit k) w' a) :
    w' = (w.visit clock k).1 ∧ a = .verdict (w.visit clock k).2 := by
  cases hstep with
  | visit => exact ⟨rfl, rfl⟩

theorem Step.deadlines_cases (hstep : Step clock w c w' a) (h : w.Valid) (k : κ) :
    (w'.deadlines k = w.deadlines k ∨ w'.deadlines k = w.live clock k) ∨
      (c = .visit k ∧ w.HasRoom clock k ∧ w'.deadlines k = w.live clock k ++ [w.due clock]) ∨
      (c = .rollback k ∧ w'.deadlines k = (w.deadlines k).dropLast) := by
  cases hstep with
  | visit k' =>
      by_cases hroom : w.HasRoom clock k'
      · have hrecorded := (h.visit_of_room hroom).2
        by_cases heq : k = k'
        · subst heq
          simp [hrecorded.deadlines, hroom]
        · simp [hrecorded.deadlines, heq]
      · left
        rw [(h.visit_of_full hroom).2.deadlines]
        exact w.update_live_eq_or clock k' k
  | remaining k' =>
      left
      rw [(h.remaining_pruned clock k').2.deadlines]
      exact w.update_live_eq_or clock k' k
  | rollback k' =>
      rw [(h.rollback_becomes k').deadlines]
      by_cases heq : k = k'
      · subst heq
        simp
      · simp [heq]
  | sweep hswept =>
      left
      right
      rw [(hswept.becomes h).deadlines]
  | online _ => simp

theorem Step.mem_deadlines (hstep : Step clock w c w' a) (h : w.Valid) {d : Int}
    (hd : d ∈ w'.deadlines k) : d ∈ w.deadlines k ∨ d = w.due clock := by
  have hlive : ∀ d ∈ w.live clock k, d ∈ w.deadlines k :=
    fun d hd => (List.dropWhile_sublist _).subset hd
  rcases hstep.deadlines_cases h k with (heq | heq) | ⟨-, -, heq⟩ | ⟨-, heq⟩ <;> rw [heq] at hd
  · exact .inl hd
  · exact .inl (hlive d hd)
  · rcases List.mem_append.1 hd with hd | hd
    · exact .inl (hlive d hd)
    · exact .inr (List.mem_singleton.1 hd)
  · exact .inl ((List.dropLast_sublist _).subset hd)

/-- Every deadline is that of a visit, at whatever clock readings the visits came. -/
theorem Valid.mem_deadlines_of_runs (h : w.Valid) (hruns : Runs Step w history w') :
    w'.Valid ∧ w' = { w with slots := w'.slots } ∧
      ∀ k, ∀ d ∈ w'.deadlines k, d ∈ w.deadlines k ∨ ∃ e ∈ history, d = w.due e.clock := by
  induction hruns with
  | nil w => exact ⟨h, rfl, fun k d hd => .inl hd⟩
  | @cons w w₁ w' e rest hstep _ ih =>
      obtain ⟨lists, hbecomes⟩ := hstep.becomes h
      obtain ⟨hvalid, hterms, hvisits⟩ := ih (hbecomes.valid h)
      refine ⟨hvalid, ?_, ?_⟩
      · rw [hterms, hbecomes.terms]
      · intro k d hd
        rcases hvisits k d hd with hd | ⟨e', he', hd⟩
        · rcases hstep.mem_deadlines h hd with hd | hd
          · exact .inl hd
          · exact .inr ⟨e, List.mem_cons_self, hd⟩
        · rw [hbecomes.due] at hd
          exact .inr ⟨e', List.mem_cons_of_mem _ he', hd⟩

/-! ## While a key waits -/

/-- The ring of `k` is full, and the deadline in front of it is `first`. -/
structure Full (w : Window κ) (k : κ) (first : Int) : Prop where
  valid : w.Valid
  deadlines : ∃ rest, w.deadlines k = first :: rest ∧ rest.length + 1 = w.allowance

/-- The key has room whenever the time is past `first`. -/
def Opens (w : Window κ) (k : κ) (first : Int) : Prop :=
  ∀ now, first < now → ((w.deadlines k).dropWhile (· < now)).length < w.allowance

theorem Full.live_eq (h : w.Full k first) (hnow : w.elapsed clock ≤ first) :
    w.live clock k = w.deadlines k := by
  obtain ⟨rest, heq, -⟩ := h.deadlines
  rw [live, heq]
  exact List.dropWhile_cons_of_neg (by simpa using hnow)

theorem Full.not_hasRoom (h : w.Full k first) (hnow : w.elapsed clock ≤ first) :
    ¬ w.HasRoom clock k := by
  obtain ⟨rest, heq, hlength⟩ := h.deadlines
  rw [HasRoom, h.live_eq hnow, heq]
  simp [hlength]

theorem Full.visit_eq (h : w.Full k first) (hnow : w.elapsed clock ≤ first) :
    (w.visit clock k).2 = .refused (retryAfter first (w.elapsed clock)) := by
  obtain ⟨rest, heq, -⟩ := h.deadlines
  rw [(h.valid.visit_of_full (h.not_hasRoom hnow)).1, hint, h.live_eq hnow, heq, List.headD_cons]

theorem Full.of_same {lists : κ → List Int} (h : w.Full k first) (hw : w.Becomes w' lists)
    (hsame : w'.deadlines k = w.deadlines k) : w'.Full k first := by
  refine ⟨hw.valid h.valid, ?_⟩
  rw [hsame, hw.allowance]
  exact h.deadlines

theorem Full.step (h : w.Full k first) (hstep : Step clock w c w' a) (hc : c ≠ .rollback k)
    (hnow : w.elapsed clock ≤ first) : w'.Full k first := by
  obtain ⟨lists, hbecomes⟩ := hstep.becomes h.valid
  apply h.of_same hbecomes
  rcases hstep.deadlines_cases h.valid k with (heq | heq) | ⟨-, hroom, -⟩ | ⟨heq, -⟩
  · exact heq
  · rw [heq, h.live_eq hnow]
  · exact absurd hroom (h.not_hasRoom hnow)
  · exact absurd heq hc

theorem Full.opens (h : w.Full k first) : w.Opens k first := by
  intro now hnow
  obtain ⟨rest, heq, hlength⟩ := h.deadlines
  have hrest := (List.dropWhile_sublist (l := rest) (· < now)).length_le
  simp [heq, hnow]
  omega

theorem length_dropWhile_dropWhile_le {α : Type} (p q : α → Bool) (l : List α) :
    ((l.dropWhile p).dropWhile q).length ≤ (l.dropWhile q).length := by
  induction l with
  | nil => simp
  | cons a l ih =>
      cases hp : p a with
      | false => simp [hp]
      | true =>
          cases hq : q a with
          | true => simpa [hp, hq] using ih
          | false =>
              have hlength := (List.dropWhile_sublist (l := l) p).length_le
              have hlength' := (List.dropWhile_sublist (l := l.dropWhile p) q).length_le
              simp [hp, hq]
              omega

theorem Opens.step (h : w.Opens k first) (hw : w.Valid) (hstep : Step clock w c w' a)
    (hc : c ≠ .visit k ∧ c ≠ .rollback k) : w'.Opens k first := by
  obtain ⟨lists, hbecomes⟩ := hstep.becomes hw
  intro now hnow
  have hroom := h now hnow
  rw [hbecomes.allowance]
  rcases hstep.deadlines_cases hw k with (heq | heq) | ⟨heq, -, -⟩ | ⟨heq, -⟩
  · rwa [heq]
  · rw [heq]
    exact Nat.lt_of_le_of_lt (length_dropWhile_dropWhile_le _ _ _) hroom
  · exact absurd heq hc.1
  · exact absurd heq hc.2

theorem Full.runs (h : w.Full k first) (hruns : Runs Step w history w')
    (hhistory : ∀ e ∈ history, e.command ≠ .rollback k ∧ w.elapsed e.clock ≤ first) :
    w'.Full k first := by
  induction hruns with
  | nil => exact h
  | @cons w w₁ w' e rest hstep _ ih =>
      obtain ⟨lists, hbecomes⟩ := hstep.becomes h.valid
      obtain ⟨hhead, hrest⟩ := List.forall_mem_cons.1 hhistory
      apply ih (h.step hstep hhead.1 hhead.2)
      rwa [hbecomes.elapsed]

theorem Opens.runs (h : w.Opens k first) (hw : w.Valid) (hruns : Runs Step w history w')
    (hhistory : ∀ e ∈ history, e.command ≠ .visit k ∧ e.command ≠ .rollback k) :
    w'.Opens k first := by
  induction hruns with
  | nil => exact h
  | cons hstep _ ih =>
      obtain ⟨lists, hbecomes⟩ := hstep.becomes hw
      obtain ⟨hhead, hrest⟩ := List.forall_mem_cons.1 hhistory
      exact ih (h.step hw hstep hhead) (hbecomes.valid hw) hrest

/-- Visits of the key that come too early are refused, so they do not close it again. -/
theorem Full.opens_of_runs (h : w.Full k first) (hruns : Runs Step w history w')
    (hordered : history.Pairwise fun e e' => w.elapsed e.clock ≤ w.elapsed e'.clock)
    (hhistory : ∀ e ∈ history, e.command ≠ .rollback k ∧
      (e.command = .visit k → w.elapsed e.clock ≤ first)) :
    w'.Opens k first := by
  induction hruns with
  | nil => exact h.opens
  | @cons w w₁ w' e rest hstep hrest ih =>
      obtain ⟨lists, hbecomes⟩ := hstep.becomes h.valid
      obtain ⟨hlater, hordered⟩ := List.pairwise_cons.1 hordered
      by_cases hnow : w.elapsed e.clock ≤ first
      · apply ih (h.step hstep (hhistory e List.mem_cons_self).1 hnow)
        · rwa [hbecomes.elapsed]
        · rw [hbecomes.elapsed]
          exact (List.forall_mem_cons.1 hhistory).2
      · apply h.opens.runs h.valid (.cons hstep hrest)
        intro e' he'
        refine ⟨?_, (hhistory e' he').1⟩
        intro hvisit
        have hpast := (hhistory e' he').2 hvisit
        rcases List.mem_cons.1 he' with rfl | he'
        · exact hnow hpast
        · have := hlater e' he'
          omega

/-! ## From the refusal to the next visit that is let in -/

/-- A key without room is left full, and told to outlast its first deadline. -/
theorem Pruned.full (hpruned : Pruned clock k w w') (h : w.Valid) (hfull : ¬ w.HasRoom clock k) :
    ∃ first, w'.Full k first ∧ (w.live clock k).head? = some first ∧ w.elapsed clock ≤ first ∧
      w.hint clock k = retryAfter first (w.elapsed clock) := by
  obtain ⟨first, rest, hlive, hlength, hnow, hhint⟩ := h.live_of_full hfull
  refine ⟨first, ⟨hpruned.valid h, rest, ?_, ?_⟩, by rw [hlive, List.head?_cons], hnow, hhint⟩
  · rw [hpruned.deadlines, Function.update_self, hlive]
  · rw [hpruned.allowance, hlength]

theorem Valid.full_of_refused (h : w.Valid) {d : Duration}
    (hrefused : (w.visit clock k).2 = .refused d) :
    ∃ first, (w.visit clock k).1.Full k first ∧ (w.live clock k).head? = some first ∧
      w.elapsed clock ≤ first ∧ d = retryAfter first (w.elapsed clock) := by
  have hfull : ¬ w.HasRoom clock k := by
    intro hroom
    simp [(h.visit_of_room hroom).1] at hrefused
  obtain ⟨hanswer, hpruned⟩ := h.visit_of_full hfull
  obtain ⟨first, hleft, hhead, hnow, hhint⟩ := hpruned.full h hfull
  rw [hanswer, hhint] at hrefused
  exact ⟨first, hleft, hhead, hnow, (Verdict.refused.inj hrefused).symm⟩

variable {e : Event (Command κ) (Answer κ)}

theorem Full.refuses (h : w.Full k first) (hruns : Runs Step w (before ++ e :: after) w')
    (hvisit : e.command = .visit k) (hnow : w.elapsed e.clock ≤ first)
    (hbefore : ∀ e' ∈ before, e'.command ≠ .rollback k ∧ w.elapsed e'.clock ≤ first) :
    e.answer = .verdict (.refused (retryAfter first (w.elapsed e.clock))) := by
  obtain ⟨w₁, w₂, hruns, hstep, -⟩ := hruns.exists_at
  have hsame : w₁.elapsed = w.elapsed := by
    rw [(h.valid.mem_deadlines_of_runs hruns).2.1]
    rfl
  have hfull := h.runs hruns hbefore
  rw [← hsame] at hnow ⊢
  rw [hvisit] at hstep
  rw [hstep.of_visit.2, hfull.visit_eq hnow]

theorem Full.admits (h : w.Full k first) (hruns : Runs Step w (before ++ e :: after) w')
    (hvisit : e.command = .visit k) (hnow : first < w.elapsed e.clock)
    (hordered : before.Pairwise fun e e' => w.elapsed e.clock ≤ w.elapsed e'.clock)
    (hbefore : ∀ e' ∈ before, e'.command ≠ .rollback k ∧
      (e'.command = .visit k → w.elapsed e'.clock ≤ first)) :
    e.answer = .verdict .admitted := by
  obtain ⟨w₁, w₂, hruns, hstep, -⟩ := hruns.exists_at
  obtain ⟨hvalid, hterms, -⟩ := h.valid.mem_deadlines_of_runs hruns
  have hsame : w₁.elapsed = w.elapsed := by
    rw [hterms]
    rfl
  have hroom : w₁.HasRoom e.clock k := by
    rw [← hsame] at hnow
    exact h.opens_of_runs hruns hordered hbefore _ hnow
  rw [hvisit] at hstep
  rw [hstep.of_visit.2, (hvalid.visit_of_room hroom).1]

theorem Full.answers (h : w.Full k first) (hruns : Runs Step w (before ++ e :: after) w')
    (hfits : ∀ e' ∈ before ++ e :: after, w.NoOverflow e'.clock)
    (hfrom : ∀ e' ∈ before ++ e :: after, w.anchor ≤ e'.clock)
    (hordered : (before ++ e :: after).Pairwise fun e e' => e.clock ≤ e'.clock)
    (hkept : ∀ e' ∈ before ++ e :: after, e'.command ≠ .rollback k)
    (hvisit : e.command = .visit k) :
    ((e.clock : Int) ≤ w.anchor + first →
      e.answer = .verdict (.refused (retryAfter (w.anchor + first) e.clock))) ∧
    (w.anchor + first < (e.clock : Int) →
      (∀ e' ∈ before, e'.command = .visit k → (e'.clock : Int) ≤ w.anchor + first) →
        e.answer = .verdict .admitted) := by
  have helapsed : ∀ e' ∈ before ++ e :: after,
      w.elapsed e'.clock = (e'.clock : Int) - w.anchor := by
    intro e' he'
    have hle := hfrom e' he'
    rw [(hfits e' he').elapsed_eq]
    omega
  have hnow := helapsed e (by simp)
  have hbefore : ∀ e' ∈ before, e'.command ≠ .rollback k ∧
      w.elapsed e'.clock = (e'.clock : Int) - w.anchor ∧ e'.clock ≤ e.clock := by
    intro e' he'
    have hmem := List.mem_append_left (e :: after) he'
    exact ⟨hkept e' hmem, helapsed e' hmem,
      (List.pairwise_append.1 hordered).2.2 e' he' e List.mem_cons_self⟩
  constructor
  · intro hearly
    have hwait : first - (e.clock - w.anchor : Int) = w.anchor + first - e.clock := by omega
    rw [h.refuses hruns hvisit (by omega), hnow, retryAfter, hwait, ← retryAfter]
    intro e' he'
    obtain ⟨hkept', hnow', hle⟩ := hbefore e' he'
    exact ⟨hkept', by omega⟩
  · intro hlate hearlier
    apply h.admits hruns hvisit (by omega)
    · apply (List.pairwise_append.1 hordered).1.imp_of_mem
      intro e₁ e₂ h₁ h₂ hle
      rw [(hbefore e₁ h₁).2.1, (hbefore e₂ h₂).2.1]
      omega
    · intro e' he'
      obtain ⟨hkept', hnow', -⟩ := hbefore e' he'
      refine ⟨hkept', fun hvisit' => ?_⟩
      have hle := hearlier e' he' hvisit'
      omega

/-- Deadlines fit their signed word; while the clock runs forward they are at most a span ahead. -/
theorem Valid.deadline_bounds (h : w.Valid) (hempty : w.deadlines k = [])
    (hruns : Runs Step w history w') (hfits : ∀ e ∈ history, w.NoOverflow e.clock)
    (hfirst : first ∈ w'.deadlines k) :
    first < 2 ^ 63 ∧ ∀ t : Nat, w.anchor ≤ t → (∀ e ∈ history, e.clock ≤ t) →
      first ≤ (t : Int) - w.anchor + w.span.toNanos := by
  rcases (h.mem_deadlines_of_runs hruns).2.2 k first hfirst with hold | ⟨e, he, hdue⟩
  · rw [hempty] at hold
    contradiction
  · have hspan := signedNanos_le w.span
    have helapsed := (hfits e he).elapsed_eq
    have hbound := (hfits e he).2
    rw [hbound.due_eq, helapsed] at hdue
    rw [DueFits, helapsed] at hbound
    refine ⟨by omega, fun t ht hforward => ?_⟩
    have hle := hforward e he
    omega

/--
The hint of a refusal at `t` is the time until the key is let in again, as long as nothing overflows
on the way there, the hint included.  Whatever is asked of the window afterwards, every visit of the
key before that instant is refused, with a hint at the same instant, and the first visit that is not
before it is admitted.  If no earlier reading of the clock was past `t`, the hint exceeds the span
by no more than a nanosecond; the header that tells it is the least positive number of whole seconds
that is enough.
-/
theorem hint_exact {t allowance : Nat} {span : Duration} {estimated : Option Nat} {d : Duration}
    {past later : List (Event (Command κ) (Answer κ))}
    (hpast : Runs Step (create clock span allowance estimated) past w)
    (hrefused : (w.visit t k).2 = .refused d) (hlater : Runs Step (w.visit t k).1 later w')
    (hfits : ∀ e ∈ past ++ ⟨t, .visit k, .verdict (.refused d)⟩ :: later,
      (create clock span allowance estimated : Window κ).NoOverflow e.clock)
    (hhint : w.HintFits t k) (ht : clock ≤ t) (hfrom : ∀ e ∈ later, t ≤ e.clock)
    (hordered : later.Pairwise fun e e' => e.clock ≤ e'.clock)
    (hkept : ∀ e ∈ later, e.command ≠ .rollback k) :
    1 ≤ d.toNanos ∧
      (∀ before e after, later = before ++ e :: after → e.command = .visit k →
        (e.clock < t + d.toNanos →
          e.answer = .verdict (.refused (.ofNanos (t + d.toNanos - e.clock)))) ∧
        (t + d.toNanos ≤ e.clock →
          (∀ e' ∈ before, e'.command = .visit k → e'.clock < t + d.toNanos) →
            e.answer = .verdict .admitted)) ∧
      ((∀ e ∈ past, e.clock ≤ t) → d.toNanos ≤ (max span minSpan).toNanos + 1) ∧
      ∃ seconds, (Middleware.LimitError.rateLimited d).retryAfterHeader? = some seconds ∧
        IsLeast {n : Nat | 1 ≤ n ∧ d.toNanos ≤ n * 1000000000} seconds.toNat := by
  have hcreated : (create clock span allowance estimated : Window κ).Valid :=
    valid_create clock span allowance estimated
  obtain ⟨hvalid, hterms, -⟩ := hcreated.mem_deadlines_of_runs hpast
  have hanchor : w.anchor = clock := congrArg anchor hterms
  obtain ⟨hpastFits, hnowFits, hlaterFits⟩ :
      (∀ e ∈ past, (create clock span allowance estimated : Window κ).NoOverflow e.clock) ∧
        w.NoOverflow t ∧ ∀ e ∈ later, w.NoOverflow e.clock := by
    refine ⟨fun e he => hfits e (List.mem_append_left _ he), ?_, fun e he => ?_⟩ <;> rw [hterms]
    · exact hfits ⟨t, _, _⟩ (List.mem_append_right _ List.mem_cons_self)
    · exact hfits e (List.mem_append_right _ (List.mem_cons_of_mem _ he))
  obtain ⟨first, hfull, hhead, hnow, hd⟩ := hvalid.full_of_refused hrefused
  have hmem : first ∈ w.deadlines k :=
    (List.dropWhile_sublist _).subset (List.mem_of_head? hhead)
  obtain ⟨hfirst, hforward⟩ := hcreated.deadline_bounds (deadlines_create _ _ _ _ k) hpast
    hpastFits hmem
  rw [HintFits, untilExpiry, List.headD_eq_head?_getD, hhead, Option.getD_some] at hhint
  have hnanos : (d.toNanos : Int) = first - w.elapsed t + 1 := by
    rw [hd, toNanos_retryAfter, signedWord_eq (by omega) hhint]
    omega
  rw [hnowFits.elapsed_eq, hanchor] at hnow hhint hnanos
  obtain ⟨lists, hbecomes⟩ := hvalid.visit_becomes t k
  refine ⟨by omega, ?_, ?_, ?_⟩
  · rintro before e after rfl hcommand
    have hanswers := hfull.answers hlater
      (by rw [hbecomes.terms]; exact hlaterFits)
      (by rw [hbecomes.anchor, hanchor]; exact fun e he => Nat.le_trans ht (hfrom e he))
      hordered hkept hcommand
    rw [hbecomes.anchor, hanchor] at hanswers
    have hfrom' := hfrom e (by simp)
    constructor
    · intro hearly
      have hwait : ((clock : Int) + first - e.clock + 1).toNat = t + d.toNanos - e.clock := by
        omega
      rw [hanswers.1 (by omega), retryAfter_eq (by omega) (by omega), if_pos (by omega), hwait]
    · intro hlate hearlier
      apply hanswers.2 (by omega)
      intro e' he' hvisit'
      have hlt := hearlier e' he' hvisit'
      omega
  · intro hall
    have hle := hforward t ht hall
    change first ≤ (t : Int) - clock + (max span minSpan).toNanos at hle
    omega
  · have hle : d.toNanos ≤ 2 ^ 63 := by omega
    exact ⟨_, rfl, Middleware.LimitError.isLeast_wholeSeconds hle⟩

/-- A clock that went back leaves the later deadline in front, and the hint is up to that one. -/
theorem hint_after_rewind :
    let start : Window Nat := create 5 (.ofSecs 1) 2 none
    let w := (start.run [(1000000005, .visit 7), (5, .visit 7)]).1
    let later : List (Event (Command Nat) (Answer Nat)) := [⟨1500000005, .sweep, .done⟩,
      ⟨1500000005, .visit 8, .verdict .admitted⟩,
      ⟨2000000005, .visit 7, .verdict (.refused ⟨0, 1⟩)⟩]
    let last : Event (Command Nat) (Answer Nat) := ⟨2000000006, .visit 7, .verdict .admitted⟩
    (w.visit 600000005 7).2 = .refused ⟨1, 400000001⟩ ∧
    (w.visit 600000005 7).1.history [(1500000005, .sweep), (1500000005, .visit 8),
      (2000000005, .visit 7), (2000000006, .visit 7)] = later ++ [last] ∧
    600000005 + Duration.toNanos ⟨1, 400000001⟩ = last.clock ∧
    last.answer = .verdict .admitted ∧
    IsLeast {n : Nat | 1 ≤ n ∧ Duration.toNanos ⟨1, 400000001⟩ ≤ n * 1000000000} 2 := by
  intro start w later last
  have hrefused : (w.visit 600000005 7).2 = .refused ⟨1, 400000001⟩ := by decide +kernel
  have hhistory : (w.visit 600000005 7).1.history [(1500000005, .sweep), (1500000005, .visit 8),
      (2000000005, .visit 7), (2000000006, .visit 7)] = later ++ [last] := by
    decide +kernel
  have hpast := start.runs_history [(1000000005, .visit 7), (5, .visit 7)]
  have hlater := (w.visit 600000005 7).1.runs_history [(1500000005, .sweep), (1500000005, .visit 8),
    (2000000005, .visit 7), (2000000006, .visit 7)]
  rw [hhistory] at hlater
  obtain ⟨-, hanswers, -, seconds, hseconds, hleast⟩ := hint_exact hpast hrefused hlater
    (by decide +kernel) (by decide +kernel) (by decide) (by decide) (by decide +kernel)
    (by decide)
  have hend : 600000005 + Duration.toNanos ⟨1, 400000001⟩ = last.clock := by decide
  refine ⟨hrefused, hhistory, hend, ?_, ?_⟩
  · exact (hanswers later last [] rfl rfl).2 hend.le (by decide +kernel)
  · cases hseconds
    exact hleast

end Window

end Throttle
