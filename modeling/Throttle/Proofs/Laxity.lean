import Mathlib.Data.List.Induction
import Throttle.Proofs.Allowance
import Throttle.Proofs.Transaction

/-!
# A laxer transactional rule serves no key less

A rule that is laxer in every window may still refuse a visit that the stricter one admits, having
spent its allowance earlier.  It never falls behind, though: `Ahead` compares the two sequences of
admission instants before every instant.  When the laxer rule refuses, one of its windows is full of
recent admissions, while the stricter rule, if it admits, has fewer recent ones; and it had no more
of the old ones, so the laxer rule is strictly ahead at that point.
-/

namespace Throttle

/-! ## Sequences of instants -/

/-- Before every instant, and altogether, `as` has at least as many entries as `bs`. -/
structure Ahead (as bs : List Nat) : Prop where
  before : ∀ x, bs.countP (· < x) ≤ as.countP (· < x)
  total : bs.length ≤ as.length

namespace Ahead

variable {as bs : List Nat} {t span : Nat}

theorem refl (as : List Nat) : Ahead as as := ⟨fun _ => Nat.le_refl _, Nat.le_refl _⟩

theorem append_left (h : Ahead as bs) (t : Nat) : Ahead (as ++ [t]) bs := by
  refine ⟨fun x => Nat.le_trans (h.before x) ?_, Nat.le_trans h.total ?_⟩ <;> simp

theorem append_both (h : Ahead as bs) (t : Nat) : Ahead (as ++ [t]) (bs ++ [t]) := by
  refine ⟨fun x => ?_, ?_⟩
  · rw [List.countP_append, List.countP_append]
    exact Nat.add_le_add_right (h.before x) _
  · simpa using h.total

theorem append_right (h : Ahead as bs) (hlast : ∀ s ∈ as, s ≤ t) (hlt : bs.length < as.length) :
    Ahead as (bs ++ [t]) := by
  refine ⟨fun x => ?_, by simpa [Nat.succ_le_iff] using hlt⟩
  by_cases hx : t < x
  · have hall : as.countP (· < x) = as.length := by
      rw [List.countP_eq_length]
      intro s hs
      have := hlast s hs
      simp only [decide_eq_true_eq]
      omega
    have hle : (bs ++ [t]).countP (· < x) ≤ (bs ++ [t]).length := List.countP_le_length
    rw [List.length_append, List.length_singleton] at hle
    omega
  · rw [List.countP_append, List.countP_singleton]
    simpa [hx] using h.before x

theorem length_eq_recent_add (l : List Nat) (span t : Nat) :
    l.length = (l.filter fun s : Nat => (t : Int) ≤ s + (span : Int)).length +
      l.countP (· < t - span) := by
  rw [List.length_eq_countP_add_countP (fun s : Nat => decide ((t : Int) ≤ s + (span : Int))),
    List.countP_eq_length_filter]
  congr 1
  apply List.countP_congr
  intro s _
  simp only [decide_eq_true_eq]
  omega

/-- Who has fewer recent entries, and no more old ones, has fewer. -/
theorem length_lt (h : Ahead as bs) (t span : Nat)
    (hrecent : (bs.filter fun s : Nat => (t : Int) ≤ s + (span : Int)).length <
      (as.filter fun s : Nat => (t : Int) ≤ s + (span : Int)).length) :
    bs.length < as.length := by
  have hold := h.before (t - span)
  rw [length_eq_recent_add as span t, length_eq_recent_add bs span t]
  omega

end Ahead

theorem VisitLog.length_recent_mono {κ : Type} [DecidableEq κ] (log : VisitLog κ) {span span' : Nat}
    (h : span ≤ span') (clock : Nat) (k : κ) :
    (log.recent span clock k).length ≤ (log.recent span' clock k).length := by
  apply List.Sublist.length_le
  apply List.monotone_filter_right
  intro s hs
  simp only [decide_eq_true_eq] at hs ⊢
  omega

def Window.Unused {κ : Type} (w : Window κ) : Prop :=
  ∃ span allowance estimated, w = .create w.anchor span allowance estimated

theorem Window.Unused.valid {κ : Type} {w : Window κ} (h : w.Unused) : w.Valid := by
  obtain ⟨span, allowance, estimated, heq⟩ := h
  rw [heq]
  exact valid_create w.anchor span allowance estimated

namespace Rule

variable {κ : Type}

/-! ## Visits among other commands -/

def Command.isVisit : Command κ → Bool
  | .visit _ => true
  | _ => false

def visits (history : List (Event (Command κ) Answer)) : List (Event (Command κ) Answer) :=
  history.filter fun e => e.command.isVisit

variable {P : VisitLog κ → Event (Command κ) Answer → Prop} {log : VisitLog κ}
  {history history' rest : List (Event (Command κ) Answer)} {e : Event (Command κ) Answer}

theorem admission?_of_visit {k : κ} (hcommand : e.command = .visit k)
    (h : admission? e ≠ some (e.clock, k)) : admission? e = none := by
  apply admission?_eq_none
  rintro s k' rfl
  obtain rfl := Command.visit.inj hcommand
  exact h (admission?_eq_some.2 rfl)

theorem throughout_visits (h : Throughout P log history) : Throughout P log (visits history) := by
  induction history generalizing log with
  | nil => exact throughout_nil
  | cons e rest ih =>
      obtain ⟨hhead, htail⟩ := throughout_cons.1 h
      cases he : e.command.isVisit with
      | true =>
          simp only [visits, List.filter_cons, he, if_true]
          exact throughout_cons.2 ⟨hhead, ih htail⟩
      | false =>
          have hnone : admission? e = none := by
            apply admission?_eq_none
            rintro s k rfl
            contradiction
          simp only [visits, List.filter_cons, he, Bool.false_eq_true, if_false]
          rw [hnone, Option.toList_none, List.append_nil] at htail
          exact ih htail

variable [DecidableEq κ]

/-! ## Two sequences of the same visits -/

/-- A visit is refused only while a window is full of visits that still count. -/
def Spends (ws : List (Window κ)) (log : VisitLog κ) (e : Event (Command κ) Answer) : Prop :=
  ∀ k, e.command = .visit k → admission? e = none →
    ∃ w ∈ ws, w.allowance ≤ (log.recent w.span.toNanos e.clock k).length

def Laxer (ws ws' : List (Window κ)) : Prop :=
  ∀ w ∈ ws, ∃ w' ∈ ws', w.span.toNanos ≤ w'.span.toNanos ∧ w'.allowance ≤ w.allowance

theorem instants_admitted_concat (k : κ) :
    (admitted (history ++ [e])).instants k = (admitted history).instants k ++
      if admission? e = some (e.clock, k) then [e.clock] else [] := by
  rw [admitted_append, admitted_cons, VisitLog.instants_append_log]
  congr 1
  cases hadmission : admission? e with
  | none => simp [admitted, VisitLog.instants]
  | some v =>
      obtain ⟨t, k'⟩ := v
      have hclock : e.clock = t := congrArg Event.clock (admission?_eq_some.1 hadmission)
      by_cases heq : k' = k <;> simp [admitted, VisitLog.instants, hclock, heq]

variable {ws ws' : List (Window κ)}

theorem ahead_of_visits (hlaxer : Laxer ws ws')
    (hordered : history.Pairwise fun e e' => e.clock ≤ e'.clock)
    (hcalls : history.map Event.call = history'.map Event.call)
    (hspends : Throughout (Spends ws) [] history)
    (hspares : ∀ w ∈ ws', Throughout (Spares w.span.toNanos w.allowance) [] history') (k : κ) :
    Ahead ((admitted history).instants k) ((admitted history').instants k) := by
  induction history using List.reverseRecOn generalizing history' with
  | nil =>
      rw [List.map_nil, eq_comm, List.map_eq_nil_iff] at hcalls
      rw [hcalls]
      exact .refl _
  | append_singleton history e ih =>
      rw [List.map_append, eq_comm, List.map_eq_append_iff] at hcalls
      obtain ⟨history', last, rfl, hcalls, hlast⟩ := hcalls
      obtain ⟨e', rfl, hcall⟩ := List.map_eq_singleton_iff.1 hlast
      rw [List.pairwise_append] at hordered
      have hahead := ih hordered.1 hcalls.symm hspends.of_append
        fun w hw => (hspares w hw).of_append
      have hclock : e'.clock = e.clock := congrArg Prod.fst hcall
      rw [instants_admitted_concat, instants_admitted_concat, hclock]
      by_cases hadmits' : admission? e' = some (e.clock, k)
      · by_cases hadmits : admission? e = some (e.clock, k)
        · rw [if_pos hadmits', if_pos hadmits]
          exact hahead.append_both e.clock
        · rw [if_pos hadmits', if_neg hadmits, List.append_nil]
          have hcommand : e.command = .visit k := by
            have heq := admission?_eq_some.1 hadmits'
            exact (congrArg Prod.snd hcall).symm.trans (congrArg Event.command heq)
          have hnone : admission? e = none := admission?_of_visit hcommand hadmits
          obtain ⟨w, hw, hfull⟩ := hspends.last k hcommand hnone
          obtain ⟨w', hw', hspan, hallowance⟩ := hlaxer w hw
          have hroom := (hspares w' hw').last _ _ hadmits'
          have hmono := VisitLog.length_recent_mono ([] ++ admitted history') hspan e.clock k
          apply hahead.append_right (t := e.clock)
          · intro s hs
            obtain ⟨e₀, he₀, rfl⟩ := exists_clock_of_mem_instants hs
            exact hordered.2.2 e₀ he₀ e (List.mem_singleton_self e)
          · apply hahead.length_lt e.clock w.span.toNanos
            rw [List.nil_append] at hfull hroom hmono
            simp only [VisitLog.recent] at hfull hroom hmono
            omega
      · rw [if_neg hadmits', List.append_nil]
        split
        · exact hahead.append_left e.clock
        · rwa [List.append_nil]

/-! ## Rules in use -/

/-- Visits, counts and sweeps, but no change of the windows or of the mode. -/
def Command.isUse : Command κ → Bool
  | .addWindow _ _ _ => false
  | .setMode _ => false
  | _ => true

/-- A rule whose windows are all in place before its first command, and a history that uses it. -/
structure InUse (r : Rule κ) (history : List (Event (Command κ) Answer)) : Prop where
  unused : ∀ w ∈ r.windows, w.Unused
  uses : ∀ e ∈ history, e.command.isUse
  ordered : history.Pairwise fun e e' => e.clock ≤ e'.clock
  fits : ∀ e ∈ history, ∀ w ∈ r.windows, w.Fits e.clock

variable {r r' : Rule κ}

theorem InUse.spares (h : r.InUse history) (hruns : Runs Step r history r') {w : Window κ}
    (hw : w ∈ r.windows) : Throughout (Spares w.span.toNanos w.allowance) [] history := by
  cases history with
  | nil => exact throughout_nil
  | cons e rest =>
      have hfits := h.fits e List.mem_cons_self w hw
      rw [← hfits.signedNanos_eq]
      exact throughout_of_runs hruns h.ordered (fun w hw => (h.unused w hw).valid) hw
        ((h.unused w hw).valid.remembers_nil 0) (fun _ _ => Nat.zero_le _)
        fun e he => (h.fits e he w hw).inRange.dueFits

/-- A window as a quota that has counted nothing. -/
def quotaOf (w : Window κ) : Quota κ := ⟨w.span.toNanos, w.allowance, []⟩

theorem tracked_quotaOf {w : Window κ} (h : w.Unused) : (quotaOf w).Tracked w.anchor w := by
  obtain ⟨span, allowance, estimated, heq⟩ := h
  have htracks : (.create w.anchor span allowance estimated : Window κ).Tracks [] w.anchor :=
    .create w.anchor span allowance estimated
  rw [← heq] at htracks
  exact ⟨htracks, rfl, rfl⟩

theorem InUse.follows (h : r.InUse (e :: rest)) (hmode : r.mode = .transactional) :
    Follows r (r.windows.map quotaOf) (e :: rest) := by
  have hfresh : ∀ w ∈ r.windows, (quotaOf w).Tracked e.clock w := fun w hw =>
    (tracked_quotaOf (h.unused w hw)).advance (h.fits e List.mem_cons_self w hw).1
  have hlater : ∀ e' ∈ e :: rest, e.clock ≤ e'.clock := by
    rw [List.forall_mem_cons]
    exact ⟨Nat.le_refl _, (List.pairwise_cons.1 h.ordered).1⟩
  have hadded : ∀ e' ∈ e :: rest, e'.command.added e'.clock = [] := by
    intro e' he'
    have huse := h.uses e' he'
    cases hcommand : e'.command <;> simp_all [Command.isUse, Command.added]
  refine ⟨⟨⟨e.clock, fun w hw => (hfresh w hw).tracks.toOrdered, hlater⟩, h.fits, ?_⟩,
    ⟨e.clock, ?_, hlater⟩, hmode, ?_⟩
  · refine h.ordered.imp_of_mem fun he' _ hle => ⟨hle, ?_⟩
    rw [hadded _ he']
    simp
  · rw [List.forall₂_map_left_iff]
    exact List.forall₂_same.2 hfresh
  · intro e' he' heq
    have huse := h.uses e' he'
    simp [heq, Command.isUse] at huse

theorem next_of_use (qs : List (Quota κ)) (h : e.command.isUse) :
    conjunction.next qs e = qs.map fun q => { q with log := q.log ++ (admission? e).toList } := by
  obtain ⟨clock, command, answer⟩ := e
  cases command with
  | visit k =>
      cases answer with
      | verdict v => cases v <;> simp [conjunction, admission?, Quota.record]
      | _ => simp [conjunction, admission?]
  | addWindow => simp [Command.isUse] at h
  | _ => simp [conjunction, admission?]

theorem after_of_uses (qs : List (Quota κ)) (h : ∀ e ∈ history, e.command.isUse) :
    conjunction.after qs history = qs.map fun q => { q with log := q.log ++ admitted history } := by
  induction history generalizing qs with
  | nil => simp [Ideal.after, admitted]
  | cons e rest ih =>
      obtain ⟨he, hrest⟩ := List.forall_mem_cons.1 h
      change conjunction.after (conjunction.next qs e) rest = _
      rw [ih _ hrest, next_of_use qs he, List.map_map]
      simp only [Function.comp_def, admitted_cons, List.append_assoc]

theorem InUse.spends (h : r.InUse history) (hmode : r.mode = .transactional)
    (hruns : Runs Step r history r') : Throughout (Spends r.windows) [] history := by
  intro before e rest heq k hcommand hnone
  have hanswers : conjunction.Answers (r.windows.map quotaOf) history := by
    cases history with
    | nil => simp at heq
    | cons e rest => exact (h.follows hmode).answers hruns
  have hexplains := hanswers before e rest heq
  have huses : ∀ e ∈ before, e.command.isUse := fun e he =>
    h.uses e (heq ▸ List.mem_append_left _ he)
  rw [after_of_uses _ huses, List.map_map] at hexplains
  have hanswer := hexplains (.verdict _) (by rw [hcommand]; rfl)
  by_contra hroom
  have hadmitted : verdictOf e.clock k (r.windows.map fun w =>
      { quotaOf w with log := (quotaOf w).log ++ admitted before }) = .admitted := by
    rw [verdictOf_eq_admitted_iff, List.forall_mem_map]
    intro w hw
    by_contra hfull
    exact hroom ⟨w, hw, Nat.not_lt.1 hfull⟩
  obtain ⟨clock, command, answer⟩ := e
  simp only at hcommand hanswer hadmitted
  rw [Function.comp_def, hadmitted] at hanswer
  simp [admission?, hcommand, hanswer] at hnone

/-! ## Whole histories -/

def admissions (history : List (Event (Command κ) Answer)) (k : κ) : Nat :=
  ((admitted history).instants k).length

/--
Let a transactional rule be laxer than another in either mode: each of its windows is matched by one
of the other that is at least as long and allows no more.  Give both the same visits at the same
times, and sweep and count each of them at any time.  Then after any number of visits the laxer rule
has admitted no key less often.
-/
theorem laxer_admits_no_less {s s' : Rule κ} (hlaxer : Laxer r.windows s.windows)
    (hmode : r.mode = .transactional) (hruns : Runs Step r history r')
    (hruns' : Runs Step s history' s')
    (huse : r.InUse history) (huse' : s.InUse history')
    (hvisits : (visits history).map Event.call = (visits history').map Event.call)
    (n : Nat) (k : κ) :
    admissions ((visits history').take n) k ≤ admissions ((visits history).take n) k := by
  have hspends := throughout_visits (huse.spends hmode hruns)
  rw [← List.take_append_drop n (visits history)] at hspends
  have hspares : ∀ w ∈ s.windows,
      Throughout (Spares w.span.toNanos w.allowance) [] ((visits history').take n) := by
    intro w hw
    have hall := throughout_visits (huse'.spares hruns' hw)
    rw [← List.take_append_drop n (visits history')] at hall
    exact hall.of_append
  have hordered : ((visits history).take n).Pairwise fun e e' => e.clock ≤ e'.clock :=
    (huse.ordered.sublist List.filter_sublist).sublist (List.take_sublist _ _)
  have hcalls : ((visits history).take n).map Event.call =
      ((visits history').take n).map Event.call := by
    rw [List.map_take, List.map_take, hvisits]
  exact (ahead_of_visits hlaxer hordered hcalls hspends.of_append hspares k).total

/-- The laxer rule refuses the third visit, which the stricter one admits, and is level with it. -/
theorem shorter_window_refuses_third_visit :
    let r : Rule Nat := ⟨[.create 0 (.ofSecs 1) 1 none], .transactional⟩
    let s : Rule Nat := ⟨[.create 0 (.ofSecs 2) 1 none], .independent⟩
    let history := r.history [(0, .visit 7), (1500000000, .visit 7), (2500000000, .visit 7)]
    let history' := s.history [(0, .visit 7), (1500000000, .visit 7), (2000000001, .sweep),
      (2500000000, .visit 7)]
    history.map (·.answer) = [.verdict .admitted, .verdict .admitted, .verdict (.refused ⟨0, 1⟩)] ∧
      history'.map (·.answer) =
        [.verdict .admitted, .verdict (.refused ⟨0, 500000001⟩), .done, .verdict .admitted] ∧
      admissions ((visits history').take 3) 7 ≤ admissions ((visits history).take 3) 7 := by
  intro r s history history'
  have hanswers : history.map (·.answer) =
      [.verdict .admitted, .verdict .admitted, .verdict (.refused ⟨0, 1⟩)] := by decide +kernel
  have hanswers' : history'.map (·.answer) =
      [.verdict .admitted, .verdict (.refused ⟨0, 500000001⟩), .done, .verdict .admitted] := by
    decide +kernel
  have hunused : ∀ span, (.create 0 span 1 none : Window Nat).Unused := fun span =>
    ⟨span, 1, none, rfl⟩
  have huse : r.InUse history := by
    refine ⟨by simpa [r] using hunused _, ?_, ?_, ?_⟩ <;> decide +kernel
  have huse' : s.InUse history' := by
    refine ⟨by simpa [s] using hunused _, ?_, ?_, ?_⟩ <;> decide +kernel
  have hlaxer : Laxer r.windows s.windows := by
    intro w hw
    obtain rfl := List.mem_singleton.1 hw
    exact ⟨_, List.mem_singleton_self _, by decide +kernel, by decide +kernel⟩
  refine ⟨hanswers, hanswers', ?_⟩
  exact laxer_admits_no_less hlaxer rfl (runs_history r _) (runs_history s _) huse huse'
    (by decide +kernel) 3 7

end Rule

end Throttle
