import Mathlib.Data.List.DropRight
import Throttle.Proofs.Allowance

/-!
# Counts of the room left account for every visit

The room left in a window for a key is what the live deadlines of the key leave of the allowance.
At one instant a visit that is recorded takes one off it, as the deadline recorded is not past yet,
and whatever prunes deadlines or touches other keys leaves it as it is.  So the counts of a rule at
an instant say whether a visit is admitted and what the counts will be after it.  This does not
depend on the order of the deadlines, and so not on how the clock ran before.
-/

namespace Throttle

/-! ## One window at one instant -/

namespace Window

variable {κ : Type} {w w' : Window κ} {clock : Nat} {k k' : κ}

theorem elapsed_le_due (hspan : w.span.toNanos < 2 ^ 63) (hfits : w.DueFits clock) :
    w.elapsed clock ≤ w.due clock := by
  rw [hfits.due_eq, Duration.signedNanos_eq hspan]
  omega

variable [DecidableEq κ]

def left (w : Window κ) (clock : Nat) (k : κ) : Nat := w.allowance - (w.live clock k).length

theorem hasRoom_iff_left : w.HasRoom clock k ↔ 0 < w.left clock k := by
  rw [HasRoom, left]
  omega

theorem Becomes.left_eq {lists : κ → List Int} (hw : w.Becomes w' lists)
    (hk : lists k = w.deadlines k ∨ lists k = w.live clock k) :
    w'.left clock k = w.left clock k := by
  have hlive : w'.live clock k = w.live clock k := by
    unfold live at hk ⊢
    rw [hw.deadlines, hw.elapsed]
    rcases hk with heq | heq
    · rw [heq]
    · rw [heq, List.dropWhile_idempotent]
  rw [left, left, hlive, hw.allowance]

theorem Pruned.left_eq (hw : Pruned clock k w w') (k' : κ) :
    w'.left clock k' = w.left clock k' :=
  Becomes.left_eq hw (w.update_live_eq_or clock k k')

theorem Recorded.left_of_ne (hw : Recorded clock k w w') (hne : k' ≠ k) :
    w'.left clock k' = w.left clock k' :=
  Becomes.left_eq hw (.inl (Function.update_of_ne hne _ _))

/-- A deadline recorded now is live, unless it has wrapped around to the past. -/
theorem Recorded.left_self (hw : Recorded clock k w w') (hdue : w.elapsed clock ≤ w.due clock) :
    w'.left clock k = w.left clock k - 1 := by
  have hdue := Int.not_lt.2 hdue
  have hlive : w'.live clock k = w.live clock k ++ [w.due clock] := by
    rw [live, hw.deadlines, hw.elapsed, Function.update_self, List.dropWhile_append, live,
      List.dropWhile_idempotent]
    split
    next hnil => simp [List.isEmpty_iff.1 hnil, hdue]
    next => rfl
  rw [left, left, hlive, hw.allowance, List.length_append, List.length_singleton]
  omega

theorem Effect.left_eq {c : Rule.Command κ} (hw : Effect clock c w w') (hc : c ≠ .visit k) :
    w'.left clock k = w.left clock k := by
  cases hw with
  | pruned hbecomes hlists => exact hbecomes.left_eq (hlists k)
  | recorded heq hrecorded =>
      apply hrecorded.left_of_ne
      rintro rfl
      exact hc heq

end Window

/-! ## The windows of a rule -/

namespace Rule

variable {κ : Type} [DecidableEq κ] {r r' : Rule κ} {clock : Nat} {k k' : κ} {c : Command κ}
  {a : Answer} {mode : RuleMode} {ws ws' : List (Window κ)} {v : Verdict}
  {history : List (Event (Command κ) Answer)}

theorem remaining_eq_left (hvalid : ∀ w ∈ r.windows, w.Valid) (clock : Nat) (k : κ) :
    (r.remaining clock k).2 = r.windows.map (·.left clock k) := by
  simp only [Rule.remaining, List.map_map]
  exact List.map_congr_left fun w hw => ((hvalid w hw).remaining_pruned clock k).1

theorem Asked.left_admitted (h : Asked mode clock k ws ws' .admitted)
    (hdues : ∀ w ∈ ws, w.elapsed clock ≤ w.due clock) :
    ws'.map (·.left clock k) = (ws.map (·.left clock k)).map (· - 1) := by
  rw [List.map_map]
  apply map_eq_of_forall₂ _ ((List.forall₂_and_left _ _).2 ⟨hdues, h.recorded⟩)
  rintro w w' ⟨hdue, -, hrecorded⟩
  exact hrecorded.left_self hdue

/-- The windows before the first one without room are charged, unless they take it back. -/
theorem Asked.left_refused {d : Duration} (h : Asked mode clock k ws ws' (.refused d))
    (hdues : ∀ w ∈ ws, w.elapsed clock ≤ w.due clock) :
    ∃ front back, ws.map (·.left clock k) = front ++ 0 :: back ∧ (∀ n ∈ front, 0 < n) ∧
      ws'.map (·.left clock k) =
        match mode with
        | .independent => front.map (· - 1) ++ 0 :: back
        | .transactional => front ++ 0 :: back := by
  generalize hv : Verdict.refused d = v at h
  induction h with
  | nil => contradiction
  | @full w w' ws hfull hpruned =>
      have hzero : w.left clock k = 0 := by
        rw [Window.hasRoom_iff_left] at hfull
        omega
      have hzero' := (Window.Pruned.left_eq hpruned k).trans hzero
      refine ⟨[], ws.map (·.left clock k), ?_, by simp, ?_⟩
      · rw [List.map_cons, hzero, List.nil_append]
      · rw [List.map_cons, hzero']
        cases mode <;> rfl
  | admitted _ _ _ _ => contradiction
  | @refused w w' ws ws' d' hroom hback _ ih =>
      rw [List.forall_mem_cons] at hdues
      obtain ⟨front, back, hcounts, hpos, hafter⟩ := ih hdues.2 hv
      refine ⟨w.left clock k :: front, back, ?_, ?_, ?_⟩
      · rw [List.map_cons, hcounts, List.cons_append]
      · exact List.forall_mem_cons.2 ⟨Window.hasRoom_iff_left.1 hroom, hpos⟩
      · rw [List.map_cons, hafter]
        cases mode with
        | independent => rw [Window.Recorded.left_self hback hdues.1]; rfl
        | transactional => rw [Window.Pruned.left_eq hback k]; rfl

theorem Step.left_eq (hstep : Step clock r c r' a) (hvalid : ∀ w ∈ r.windows, w.Valid)
    (hc : c ≠ .visit k) (hadded : c.added clock = []) :
    r'.windows.map (·.left clock k) = r.windows.map (·.left clock k) := by
  obtain ⟨ws, heffect, hwindows⟩ := hstep.effect hvalid
  rw [hwindows, hadded, List.append_nil]
  exact map_eq_of_forall₂ (fun w w' hw => hw.left_eq hc) heffect

/-! ## Counts and sweeps -/

/-- Commands that record nothing and leave the terms of the rule as they are. -/
def Command.isIdle : Command κ → Bool
  | .remaining _ => true
  | .sweep => true
  | .sweepWindow _ => true
  | _ => false

/-- A rule that differs only in what its windows have pruned by `clock`. -/
structure Alike (clock : Nat) (r r' : Rule κ) : Prop where
  mode : r'.mode = r.mode
  valid : ∀ w ∈ r'.windows, w.Valid
  dues : r'.windows.map (fun w => (w.elapsed clock, w.due clock)) =
    r.windows.map fun w => (w.elapsed clock, w.due clock)
  left : ∀ k, r'.windows.map (·.left clock k) = r.windows.map (·.left clock k)

theorem Alike.refl (clock : Nat) (hvalid : ∀ w ∈ r.windows, w.Valid) : Alike clock r r :=
  ⟨rfl, hvalid, rfl, fun _ => rfl⟩

theorem Alike.trans {r'' : Rule κ} (h : Alike clock r r') (h' : Alike clock r' r'') :
    Alike clock r r'' :=
  ⟨h'.mode.trans h.mode, h'.valid, h'.dues.trans h.dues, fun k => (h'.left k).trans (h.left k)⟩

theorem Alike.remaining_eq (h : Alike clock r r') (hvalid : ∀ w ∈ r.windows, w.Valid) (k : κ) :
    (r'.remaining clock k).2 = (r.remaining clock k).2 := by
  rw [remaining_eq_left hvalid, remaining_eq_left h.valid, h.left]

theorem Alike.elapsed_le_due (h : Alike clock r r')
    (hdues : ∀ w ∈ r.windows, w.elapsed clock ≤ w.due clock) :
    ∀ w ∈ r'.windows, w.elapsed clock ≤ w.due clock := by
  intro w' hw'
  have hmem : (w'.elapsed clock, w'.due clock) ∈
      r.windows.map fun w => (w.elapsed clock, w.due clock) :=
    h.dues ▸ List.mem_map_of_mem hw'
  obtain ⟨w, hw, heq⟩ := List.mem_map.1 hmem
  obtain ⟨helapsed, hdue⟩ := Prod.mk.inj heq
  rw [← helapsed, ← hdue]
  exact hdues w hw

theorem Step.alike (hstep : Step clock r c r' a) (hvalid : ∀ w ∈ r.windows, w.Valid)
    (hc : c.isIdle = true) : Alike clock r r' := by
  obtain ⟨ws, heffect, hwindows⟩ := hstep.effect hvalid
  have hadded : c.added clock = [] := by
    cases c <;> simp_all [Command.isIdle, Command.added]
  refine ⟨?_, hstep.valid hvalid, ?_, ?_⟩
  · cases hstep <;> first | rfl | simp [Command.isIdle] at hc
  · rw [hwindows, hadded, List.append_nil]
    apply map_eq_of_forall₂ _ heffect
    intro w w' hw
    obtain ⟨lists, hbecomes⟩ := hw.becomes
    rw [hbecomes.elapsed, hbecomes.due]
  · intro k
    apply hstep.left_eq hvalid _ hadded
    rintro rfl
    simp [Command.isIdle] at hc

theorem Step.of_remaining (hstep : Step clock r (.remaining k) r' a) :
    a = .counts (r.remaining clock k).2 := by
  cases hstep with
  | remaining => rfl

/-- Counts taken while nothing is recorded are all the same, in the end as at the start. -/
theorem alike_of_runs (hruns : Runs Step r history r') (hvalid : ∀ w ∈ r.windows, w.Valid)
    (hidle : ∀ e ∈ history, e.clock = clock ∧ e.command.isIdle = true) :
    Alike clock r r' ∧ ∀ e ∈ history, ∀ k, e.command = .remaining k →
      e.answer = .counts (r.remaining clock k).2 := by
  induction hruns with
  | nil r => exact ⟨.refl clock hvalid, by simp⟩
  | @cons r r₁ r' e rest hstep _ ih =>
      obtain ⟨⟨hclock, hcommand⟩, hrest⟩ := List.forall_mem_cons.1 hidle
      rw [hclock] at hstep
      have hhead := hstep.alike hvalid hcommand
      obtain ⟨htail, hcounts⟩ := ih hhead.valid hrest
      refine ⟨hhead.trans htail, ?_⟩
      intro e' he' k hcommand'
      rcases List.mem_cons.1 he' with rfl | he'
      · rw [hcommand'] at hstep
        exact hstep.of_remaining
      · rw [hcounts e' he' k hcommand', hhead.remaining_eq hvalid]

/-! ## A visit between counts -/

/--
Whatever a rule has been through, the counts that it gives for a key before and after a visit of the
key account for the visit, if its deadlines do not overflow.  The visit is admitted exactly if no
count is zero, and then each goes down by one.  Otherwise, in independent mode, those before the
first zero go down by one and the others stay; in transactional mode all stay.  Counts for other
keys stay in any case.
-/
theorem visit_accounted {past before after : List (Event (Command κ) Answer)} {t : Nat}
    (hpast : Runs Step ⟨[], mode⟩ past r)
    (hfits : ∀ w ∈ r.windows, w.span.toNanos < 2 ^ 63 ∧ w.DueFits t)
    (hruns : Runs Step r (before ++ ⟨t, .visit k, .verdict v⟩ :: after) r')
    (hidle : ∀ e ∈ before ++ after, e.clock = t ∧ e.command.isIdle = true) :
    (∀ e ∈ before, ∀ k, e.command = .remaining k → e.answer = .counts (r.remaining t k).2) ∧
      (∀ e ∈ after, ∀ k, e.command = .remaining k → e.answer = .counts (r'.remaining t k).2) ∧
      (v = .admitted ↔ ∀ n ∈ (r.remaining t k).2, 0 < n) ∧
      (v = .admitted → (r'.remaining t k).2 = (r.remaining t k).2.map (· - 1)) ∧
      (v ≠ .admitted → ∃ front back,
        (r.remaining t k).2 = front ++ 0 :: back ∧ (∀ n ∈ front, 0 < n) ∧
          (r'.remaining t k).2 =
            match r.mode with
            | .independent => front.map (· - 1) ++ 0 :: back
            | .transactional => front ++ 0 :: back) ∧
      ∀ k' ≠ k, (r'.remaining t k').2 = (r.remaining t k').2 := by
  have hvalid := valid_of_runs hpast (by simp)
  obtain ⟨hidle, hidle'⟩ := List.forall_mem_append.1 hidle
  obtain ⟨r₁, r₂, hbefore, hstep, hafter⟩ := hruns.exists_at
  obtain ⟨hstart, hcounts⟩ := alike_of_runs hbefore hvalid hidle
  have hvalid₂ := hstep.valid hstart.valid
  obtain ⟨hend, hcounts'⟩ := alike_of_runs hafter hvalid₂ hidle'
  have hasked := hstep.asked hstart.valid
  have hdues := hstart.elapsed_le_due fun w hw =>
    Window.elapsed_le_due (hfits w hw).1 (hfits w hw).2
  -- Counts at `t` are seen through `left`, which only the visit itself can have changed.
  have hleft : ∀ k, (r.remaining t k).2 = r₁.windows.map (·.left t k) := fun k =>
    (remaining_eq_left hvalid t k).trans (hstart.left k).symm
  have hleft' : ∀ k, (r'.remaining t k).2 = r₂.windows.map (·.left t k) := fun k =>
    (remaining_eq_left hend.valid t k).trans (hend.left k)
  refine ⟨hcounts, ?_, ?_, ?_, ?_, ?_⟩
  · intro e he k hcommand
    rw [hcounts' e he k hcommand, hend.remaining_eq hvalid₂]
  · rw [hasked.admitted_iff, hleft, List.forall_mem_map]
    simp only [Window.hasRoom_iff_left]
  · rintro rfl
    rw [hleft, hleft', hasked.left_admitted hdues]
  · intro hv
    cases v with
    | admitted => exact absurd rfl hv
    | refused d =>
        rw [hleft, hleft', ← hstart.mode]
        exact hasked.left_refused hdues
  · intro k' hne
    rw [hleft, hleft', hstep.left_eq hstart.valid _ rfl]
    rintro ⟨rfl⟩
    exact hne rfl

/--
The clock went back between the visits, so a deadline that has passed counts for as long as a later
one is ahead of it.  The first window is charged for a visit that the second refuses.
-/
theorem counts_around_refusal :
    let setup : List (Nat × Command Nat) := [(0, .addWindow (.ofSecs 1) 3 none),
      (0, .addWindow (.ofSecs 10) 1 none), (6000000000, .visit 7), (4000000000, .visit 7)]
    let t := 5500000000
    let commands : List (Nat × Command Nat) := [(t, .remaining 7), (t, .remaining 8),
      (t, .visit 7), (t, .sweep), (t, .remaining 7), (t, .remaining 8)]
    let r := ((⟨[], .independent⟩ : Rule Nat).run setup).1
    let r' := (r.run commands).1
    let before : List (Event (Command Nat) Answer) :=
      [⟨t, .remaining 7, .counts [1, 0]⟩, ⟨t, .remaining 8, .counts [3, 1]⟩]
    let after : List (Event (Command Nat) Answer) :=
      [⟨t, .sweep, .done⟩, ⟨t, .remaining 7, .counts [0, 0]⟩, ⟨t, .remaining 8, .counts [3, 1]⟩]
    r.history commands =
        before ++ ⟨t, .visit 7, .verdict (.refused ⟨10, 500000001⟩)⟩ :: after ∧
      (∃ front back, (r.remaining t 7).2 = front ++ 0 :: back ∧ (∀ n ∈ front, 0 < n) ∧
        (r'.remaining t 7).2 = front.map (· - 1) ++ 0 :: back) ∧
      (r'.remaining t 8).2 = (r.remaining t 8).2 := by
  intro setup t commands r r' before after
  have hhistory : r.history commands =
      before ++ ⟨t, .visit 7, .verdict (.refused ⟨10, 500000001⟩)⟩ :: after := by
    decide +kernel
  have hpast := runs_history (⟨[], .independent⟩ : Rule Nat) setup
  have hruns := runs_history r commands
  rw [hhistory] at hruns
  obtain ⟨-, -, -, -, hrefused, hothers⟩ :=
    visit_accounted hpast (by decide +kernel) hruns (by decide +kernel)
  exact ⟨hhistory, hrefused nofun, hothers 8 (by decide)⟩

end Rule

end Throttle
