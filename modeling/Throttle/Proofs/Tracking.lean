import Throttle.Proofs.Effects
import Throttle.Proofs.History

/-!
# How a window follows a log of visits

As long as the clock does not go back, the deadlines of a key stay in order, so pruning the leading
ones that have passed removes all that have passed.  `Tracks` is the invariant that ties a window
to a log: those deadlines of a key that are not past are those of its visits that still count.
The window may hold older deadlines too, since it prunes a key only when it meets it.
-/

namespace Throttle

theorem dropWhile_lt_eq_filter {l : List Int} (h : l.Pairwise (· ≤ ·)) (now : Int) :
    l.dropWhile (· < now) = l.filter (now ≤ ·) := by
  induction l with
  | nil => rfl
  | cons d rest ih =>
      rw [List.pairwise_cons] at h
      by_cases hd : d < now
      · simp only [List.dropWhile_cons, hd, decide_true, if_true, List.filter_cons,
          Int.not_le.2 hd, decide_false, Bool.false_eq_true, if_false]
        exact ih h.2
      · have hall : ∀ a ∈ d :: rest, decide (now ≤ a) = true := by
          intro a ha
          rcases List.mem_cons.1 ha with rfl | ha
          · simpa using hd
          · have := h.1 a ha
            simp only [decide_eq_true_eq]
            omega
        rw [List.filter_eq_self.2 hall]
        simp [hd]

/--
What a log of all earlier admissions calls for when a key comes to a window.  The wait of a refused
key lasts until its oldest visit that still counts expires; one that does not fit a signed word is
cut down to a nanosecond.
-/
def VisitLog.verdict {κ : Type} [DecidableEq κ] (log : VisitLog κ) (span : Int)
    (allowance clock : Nat) (k : κ) : Verdict :=
  let counted := log.recent span clock k
  let wait := counted.min?.getD clock + span - clock + 1
  if counted.length < allowance then .admitted
  else .refused (.ofNanos (if wait < 2 ^ 63 then wait.toNat else 1))

namespace Window

variable {κ : Type}

/--
The clock has not gone back behind the anchor, and neither the time since then nor the deadline of a
visit overflows.
-/
def InRange (w : Window κ) (clock : Nat) : Prop :=
  w.anchor ≤ clock ∧ clock < w.anchor + 2 ^ 63 ∧
    (clock : Int) - w.anchor + w.span.signedNanos < 2 ^ 63

theorem InRange.elapsed_eq {w : Window κ} {clock : Nat} (h : w.InRange clock) :
    w.elapsed clock = (clock : Int) - w.anchor := by
  obtain ⟨hanchor, hlt, -⟩ := h
  rw [elapsed, signedWord_eq (by omega) (by omega)]
  omega

/-- The deadline of a visit at the instant `s`. -/
def deadlineOf (w : Window κ) (s : Nat) : Int := (s : Int) - w.anchor + w.span.signedNanos

theorem InRange.dueFits {w : Window κ} {clock : Nat} (h : w.InRange clock) : w.DueFits clock := by
  have hspan := w.span.signedNanos_bounds.1
  rw [DueFits, h.elapsed_eq]
  obtain ⟨hanchor, -, hdue⟩ := h
  omega

theorem InRange.due_eq {w : Window κ} {clock : Nat} (h : w.InRange clock) :
    w.due clock = w.deadlineOf clock := by
  rw [h.dueFits.due_eq, deadlineOf, h.elapsed_eq]

variable [DecidableEq κ]

theorem Becomes.deadlineOf {w w' : Window κ} {lists : κ → List Int} (h : w.Becomes w' lists) :
    w'.deadlineOf = w.deadlineOf := by
  funext s
  rw [Window.deadlineOf, Window.deadlineOf, h.span, h.anchor]

theorem Becomes.inRange {w w' : Window κ} {lists : κ → List Int} (h : w.Becomes w' lists)
    {clock : Nat} : w'.InRange clock ↔ w.InRange clock := by
  rw [InRange, InRange, h.anchor, h.span]

/-! ## Deadlines in order -/

structure Ordered (w : Window κ) (clock : Nat) : Prop where
  valid : w.Valid
  sorted : ∀ k, (w.deadlines k).Pairwise (· ≤ ·)
  bounded : ∀ k, ∀ d ∈ w.deadlines k, d ≤ w.deadlineOf clock

namespace Ordered

variable {w w' : Window κ} {clock clock' : Nat} {lists : κ → List Int} {k : κ}

theorem create (clock : Nat) (span : Duration) (allowance : Nat) (estimated : Option Nat) :
    (create clock span allowance estimated : Window κ).Ordered clock := by
  refine ⟨valid_create clock span allowance estimated, ?_, ?_⟩ <;> simp

theorem advance (h : w.Ordered clock) (hle : clock ≤ clock') : w.Ordered clock' := by
  refine ⟨h.valid, h.sorted, ?_⟩
  intro k d hd
  have hbound := h.bounded k d hd
  simp only [deadlineOf] at hbound ⊢
  omega

theorem live_eq_filter (h : w.Ordered clock) (hin : w.InRange clock') (k : κ) :
    w.live clock' k = (w.deadlines k).filter ((clock' : Int) - w.anchor ≤ ·) := by
  rw [live, hin.elapsed_eq]
  exact dropWhile_lt_eq_filter (h.sorted k) _

theorem of_sublist (h : w.Ordered clock) (hw : w.Becomes w' lists)
    (hsub : ∀ k, (lists k).Sublist (w.deadlines k)) : w'.Ordered clock := by
  refine ⟨hw.valid h.valid, ?_, ?_⟩
  · intro k
    rw [hw.deadlines]
    exact (h.sorted k).sublist (hsub k)
  · intro k d hd
    rw [hw.deadlines] at hd
    rw [hw.deadlineOf]
    exact h.bounded k d ((hsub k).subset hd)

theorem record (h : w.Ordered clock) (hin : w.InRange clock)
    (hw : Recorded clock k w w') : w'.Ordered clock := by
  have hlive : (w.live clock k).Sublist (w.deadlines k) := List.dropWhile_sublist _
  refine ⟨hw.valid h.valid, ?_, ?_⟩
  · intro k'
    rw [hw.deadlines, Function.update_apply]
    split
    · refine List.pairwise_append.2 ⟨(h.sorted k).sublist hlive, by simp, ?_⟩
      intro d hd d' hd'
      rw [List.mem_singleton.1 hd', hin.due_eq]
      exact h.bounded k d (hlive.subset hd)
    · exact h.sorted k'
  · intro k' d hd
    rw [hw.deadlines, Function.update_apply] at hd
    rw [hw.deadlineOf]
    split at hd
    · rcases List.mem_append.1 hd with hd | hd
      · exact h.bounded k d (hlive.subset hd)
      · rw [List.mem_singleton.1 hd]
        exact Int.le_of_eq hin.due_eq
    · exact h.bounded k' d hd

end Ordered

/-! ## Following a log -/

structure Tracks (w : Window κ) (log : VisitLog κ) (clock : Nat) : Prop extends
    w.Ordered clock where
  instants_sorted : ∀ k, (log.instants k).Pairwise (· ≤ ·)
  within : ∀ k, ∀ s ∈ log.instants k, s ≤ clock
  recent : ∀ k, (w.deadlines k).filter ((clock : Int) - w.anchor ≤ ·) =
    (log.recent w.span.signedNanos clock k).map w.deadlineOf

namespace Tracks

variable {w w' : Window κ} {log : VisitLog κ} {clock clock' : Nat} {lists : κ → List Int} {k : κ}

theorem create (clock : Nat) (span : Duration) (allowance : Nat) (estimated : Option Nat) :
    (create clock span allowance estimated : Window κ).Tracks [] clock := by
  refine ⟨.create clock span allowance estimated, ?_, ?_, ?_⟩ <;>
    simp [VisitLog.instants, VisitLog.recent]

theorem advance (h : w.Tracks log clock) (hle : clock ≤ clock') : w.Tracks log clock' := by
  refine ⟨h.toOrdered.advance hle, h.instants_sorted,
    fun k s hs => Nat.le_trans (h.within k s hs) hle, ?_⟩
  intro k
  have hlater : (w.deadlines k).filter (fun d => (clock' : Int) - w.anchor ≤ d) =
      ((w.deadlines k).filter fun d => (clock : Int) - w.anchor ≤ d).filter
        fun d => (clock' : Int) - w.anchor ≤ d := by
    rw [List.filter_filter]
    apply List.filter_congr
    intro d _
    simp only [← Bool.decide_and, decide_eq_decide]
    omega
  rw [hlater, h.recent, List.filter_map, ← VisitLog.recent_recent hle]
  refine congrArg (List.map w.deadlineOf) (List.filter_congr ?_)
  intro s _
  rw [Function.comp, decide_eq_decide, deadlineOf]
  omega

theorem live_eq (h : w.Tracks log clock) (hin : w.InRange clock) (k : κ) :
    w.live clock k = (log.recent w.span.signedNanos clock k).map w.deadlineOf := by
  rw [h.live_eq_filter hin, h.recent]

theorem hasRoom_iff (h : w.Tracks log clock) (hin : w.InRange clock) (k : κ) :
    w.HasRoom clock k ↔
      (log.recent w.span.signedNanos clock k).length < w.allowance := by
  rw [HasRoom, h.live_eq hin, List.length_map]

/-- Pruning the lists of some keys loses nothing that still counts. -/
theorem prune (h : w.Tracks log clock) (hin : w.InRange clock) (hw : w.Becomes w' lists)
    (hlists : ∀ k, lists k = w.deadlines k ∨ lists k = w.live clock k) : w'.Tracks log clock := by
  have hsub : ∀ k, (lists k).Sublist (w.deadlines k) := by
    intro k
    rcases hlists k with heq | heq
    · rw [heq]
    · rw [heq]
      exact List.dropWhile_sublist _
  refine ⟨h.toOrdered.of_sublist hw hsub, h.instants_sorted, h.within, ?_⟩
  intro k
  rw [hw.deadlines, hw.anchor, hw.span, hw.deadlineOf, ← h.recent k]
  rcases hlists k with heq | heq
  · rw [heq]
  · rw [heq, h.live_eq_filter hin, List.filter_filter]
    simp

theorem update_live (h : w.Tracks log clock) (hin : w.InRange clock)
    (hw : Pruned clock k w w') : w'.Tracks log clock :=
  h.prune hin hw (w.update_live_eq_or clock k)

theorem record (h : w.Tracks log clock) (hin : w.InRange clock)
    (hw : Recorded clock k w w') : w'.Tracks (log ++ [(clock, k)]) clock := by
  refine ⟨h.toOrdered.record hin hw, ?_, ?_, ?_⟩
  · intro k'
    rw [VisitLog.instants_append]
    split
    · refine List.pairwise_append.2 ⟨h.instants_sorted k', by simp, ?_⟩
      intro s hs s' hs'
      rw [List.mem_singleton.1 hs']
      exact h.within k' s hs
    · exact h.instants_sorted k'
  · intro k' s hs
    rw [VisitLog.instants_append] at hs
    split at hs
    · rcases List.mem_append.1 hs with hs | hs
      · exact h.within k' s hs
      · exact Nat.le_of_eq (List.mem_singleton.1 hs)
    · exact h.within k' s hs
  · intro k'
    rw [hw.deadlines, hw.anchor, hw.span, hw.deadlineOf, Function.update_apply, VisitLog.recent,
      VisitLog.instants_append]
    split
    next heq =>
      subst heq
      have hpast := h.recent k'
      have hlive : (w.live clock k').filter ((clock : Int) - w.anchor ≤ ·) =
          (log.recent w.span.signedNanos clock k').map w.deadlineOf := by
        rw [h.live_eq_filter hin, List.filter_filter]
        simpa using hpast
      rw [List.filter_append, List.filter_append, List.map_append, hlive, hin.due_eq]
      refine congrArg₂ (· ++ ·) rfl ?_
      -- The new visit counts at once, unless the span is negative.
      by_cases hneg : (clock : Int) ≤ clock + w.span.signedNanos
      · simp [deadlineOf, hneg]
        omega
      · simp [deadlineOf, hneg]
        omega
    next => exact h.recent k'

theorem head?_recent (h : w.Tracks log clock) (k : κ) :
    (log.recent w.span.signedNanos clock k).head? =
      (log.recent w.span.signedNanos clock k).min? := by
  have hsorted := (h.instants_sorted k).sublist
    (List.filter_sublist (p := fun s : Nat => (clock : Int) ≤ s + w.span.signedNanos))
  rw [← VisitLog.recent] at hsorted
  cases hrecent : log.recent w.span.signedNanos clock k with
  | nil => rfl
  | cons oldest rest =>
      rw [hrecent, List.pairwise_cons] at hsorted
      symm
      rw [List.head?_cons, List.min?_eq_some_iff]
      refine ⟨List.mem_cons_self, ?_⟩
      intro s hs
      rcases List.mem_cons.1 hs with rfl | hs
      · exact Nat.le_refl _
      · exact hsorted.1 s hs

theorem hint_eq (h : w.Tracks log clock) (hin : w.InRange clock) {oldest : Nat}
    (hhead : (log.recent w.span.signedNanos clock k).head? = some oldest) :
    w.hint clock k = .ofNanos
      (if oldest + w.span.signedNanos - clock + 1 < 2 ^ 63
        then (oldest + w.span.signedNanos - clock + 1).toNat else 1) := by
  obtain ⟨rest, hrecent⟩ := List.head?_eq_some_iff.1 hhead
  obtain ⟨hlog, hcounts⟩ := VisitLog.mem_recent.1 (hrecent ▸ List.mem_cons_self)
  have hwithin := h.within k oldest hlog
  have hspan := w.span.signedNanos_bounds.2
  have hlive : (w.live clock k).headD (w.elapsed clock) = w.deadlineOf oldest := by
    rw [h.live_eq hin, hrecent]
    rfl
  have hwait : w.deadlineOf oldest - w.elapsed clock = oldest + w.span.signedNanos - clock := by
    rw [deadlineOf, hin.elapsed_eq]
    omega
  rw [hint, hlive, retryAfter_eq (by omega) (by omega), hwait]

theorem verdict_of_room (h : w.Tracks log clock) (hin : w.InRange clock)
    (hroom : w.HasRoom clock k) :
    log.verdict w.span.signedNanos w.allowance clock k = .admitted := by
  rw [VisitLog.verdict]
  exact if_pos ((h.hasRoom_iff hin k).1 hroom)

theorem verdict_of_full (h : w.Tracks log clock) (hin : w.InRange clock)
    (hfull : ¬ w.HasRoom clock k) :
    log.verdict w.span.signedNanos w.allowance clock k = .refused (w.hint clock k) := by
  have hcount := mt (h.hasRoom_iff hin k).2 hfull
  have hpos := h.valid.allowance_pos
  obtain ⟨oldest, holdest⟩ : ∃ s, (log.recent w.span.signedNanos clock k).head? = some s := by
    rw [← Option.isSome_iff_exists, List.isSome_head?, ← List.length_pos_iff]
    omega
  rw [VisitLog.verdict, h.hint_eq hin holdest]
  simp only [if_neg hcount]
  rw [← h.head?_recent, holdest]
  rfl

theorem visit (h : w.Tracks log clock) (hin : w.InRange clock) (k : κ) :
    (w.visit clock k).2 = log.verdict w.span.signedNanos w.allowance clock k ∧
      (w.visit clock k).1.Tracks
        (if (w.visit clock k).2 = .admitted then log ++ [(clock, k)] else log) clock := by
  by_cases hroom : w.HasRoom clock k
  · obtain ⟨hadmitted, hbecomes⟩ := h.valid.visit_of_room hroom
    rw [hadmitted, if_pos rfl, h.verdict_of_room hin hroom]
    exact ⟨rfl, h.record hin hbecomes⟩
  · obtain ⟨hrefused, hbecomes⟩ := h.valid.visit_of_full hroom
    rw [hrefused, if_neg (by simp), h.verdict_of_full hin hroom]
    exact ⟨rfl, h.update_live hin hbecomes⟩

theorem remaining (h : w.Tracks log clock) (hin : w.InRange clock) (k : κ) :
    (w.remaining clock k).2 =
        w.allowance - (log.recent w.span.signedNanos clock k).length ∧
      (w.remaining clock k).1.Tracks log clock := by
  obtain ⟨hcount, hbecomes⟩ := h.valid.remaining_pruned clock k
  rw [hcount, h.live_eq hin, List.length_map]
  exact ⟨rfl, h.update_live hin hbecomes⟩

end Tracks

end Window

end Throttle
