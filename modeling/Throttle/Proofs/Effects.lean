import Mathlib.Logic.Function.Basic
import Throttle.Duration.Lemmas
import Throttle.Slots.Lemmas
import Throttle.Window

/-!
# What each operation of a window does to the deadlines of the keys

A window is seen through `deadlines`, the list of recorded deadlines of every key.  A visit prunes
the list of its key and appends to it if there is room, a rollback takes the last deadline back, a
count of the room left prunes one list, and no other list changes.  Slots, rings and the stack of
free slots do not show in these laws.
-/

namespace Throttle.Window

variable {κ : Type}

structure Valid (w : Window κ) : Prop where
  slots : w.slots.Valid w.allowance
  allowance_pos : 0 < w.allowance

theorem valid_create (clock : Nat) (span : Duration) (allowance : Nat) (estimated : Option Nat) :
    (create clock span allowance estimated : Window κ).Valid := by
  constructor
  · exact Slots.valid_ofEstimate _ _
  · simp only [create]
    omega

/-- The time since the anchor is a signed word. -/
theorem elapsed_bounds (w : Window κ) (clock : Nat) :
    -2 ^ 63 ≤ w.elapsed clock ∧ w.elapsed clock < 2 ^ 63 :=
  signedWord_bounds _

/-- The sum that makes the deadline of a visit fits its signed word. -/
def DueFits (w : Window κ) (clock : Nat) : Prop :=
  -2 ^ 63 ≤ w.elapsed clock + w.span.signedNanos ∧ w.elapsed clock + w.span.signedNanos < 2 ^ 63

instance (w : Window κ) (clock : Nat) : Decidable (w.DueFits clock) :=
  inferInstanceAs (Decidable (_ ∧ _))

theorem DueFits.due_eq {w : Window κ} {clock : Nat} (h : w.DueFits clock) :
    w.due clock = w.elapsed clock + w.span.signedNanos :=
  signedWord_eq h.1 h.2

/-! ## The time until a deadline -/

section RetryAfter

variable {earliest now : Int}

theorem toNanos_retryAfter (earliest now : Int) :
    ((retryAfter earliest now).toNanos : Int) = max (signedWord (earliest - now + 1)) 1 := by
  have hlt := (signedWord_bounds (earliest - now + 1)).2
  rw [retryAfter, Duration.toNanos_ofNanos (by omega), Int.toNat_of_nonneg (by omega)]

/-- A time that does not fit its word comes out negative, and is reported as a nanosecond. -/
theorem retryAfter_eq (hle : now ≤ earliest) (hlt : earliest - now < 2 ^ 64) :
    retryAfter earliest now =
      .ofNanos (if earliest - now + 1 < 2 ^ 63 then (earliest - now + 1).toNat else 1) := by
  rw [retryAfter]
  split
  next hfits => rw [signedWord_eq (by omega) hfits, max_eq_left (by omega)]
  next hlong =>
    have hwrap := signedWord_nonpos (Int.not_lt.1 hlong) (by omega)
    rw [max_eq_right (by omega)]
    rfl

theorem toNanos_retryAfter_le (hle : now ≤ earliest) :
    ((retryAfter earliest now).toNanos : Int) ≤ earliest - now + 1 := by
  rw [toNanos_retryAfter]
  exact max_le (signedWord_le (by omega)) (by omega)

end RetryAfter

variable [DecidableEq κ]

def deadlines (w : Window κ) (k : κ) : List Int := w.slots.deadlines k

/-- The deadlines of a key without the leading ones that have passed. -/
def live (w : Window κ) (clock : Nat) (k : κ) : List Int :=
  (w.deadlines k).dropWhile (· < w.elapsed clock)

def HasRoom (w : Window κ) (clock : Nat) (k : κ) : Prop := (w.live clock k).length < w.allowance

instance (w : Window κ) (clock : Nat) (k : κ) : Decidable (w.HasRoom clock k) :=
  inferInstanceAs (Decidable (_ < _))

/-- How long a refused key is told to wait. -/
def hint (w : Window κ) (clock : Nat) (k : κ) : Duration :=
  retryAfter ((w.live clock k).headD (w.elapsed clock)) (w.elapsed clock)

/-- The time until the first live deadline of a key has passed. -/
def untilExpiry (w : Window κ) (clock : Nat) (k : κ) : Int :=
  (w.live clock k).headD (w.elapsed clock) - w.elapsed clock + 1

/-- The sum that makes the hint fits its signed word. -/
def HintFits (w : Window κ) (clock : Nat) (k : κ) : Prop := w.untilExpiry clock k < 2 ^ 63

instance (w : Window κ) (clock : Nat) (k : κ) : Decidable (w.HintFits clock k) :=
  inferInstanceAs (Decidable (_ < _))

theorem update_live_eq_or (w : Window κ) (clock : Nat) (k k' : κ) :
    Function.update w.deadlines k (w.live clock k) k' = w.deadlines k' ∨
      Function.update w.deadlines k (w.live clock k) k' = w.live clock k' := by
  rw [Function.update_apply]
  split
  next heq => exact .inr (heq ▸ rfl)
  next => exact .inl rfl

@[simp]
theorem deadlines_create (clock : Nat) (span : Duration) (allowance : Nat) (estimated : Option Nat)
    (k : κ) : (create clock span allowance estimated : Window κ).deadlines k = [] := by
  simp [deadlines, create]

/-- `w'` is `w` with other slots, in which the deadlines of the keys are as given. -/
structure Becomes (w w' : Window κ) (lists : κ → List Int) : Prop where
  terms : w' = { w with slots := w'.slots }
  slots : w'.slots.Valid w.allowance
  deadlines : w'.deadlines = lists

namespace Becomes

variable {w w' : Window κ} {lists : κ → List Int}

theorem span (h : w.Becomes w' lists) : w'.span = w.span := by
  simpa using congrArg Window.span h.terms

theorem allowance (h : w.Becomes w' lists) : w'.allowance = w.allowance := by
  simpa using congrArg Window.allowance h.terms

theorem anchor (h : w.Becomes w' lists) : w'.anchor = w.anchor := by
  simpa using congrArg Window.anchor h.terms

theorem elapsed (h : w.Becomes w' lists) : w'.elapsed = w.elapsed := by
  funext clock
  unfold Window.elapsed
  rw [h.anchor]

theorem due (h : w.Becomes w' lists) : w'.due = w.due := by
  funext clock
  rw [Window.due, Window.due, h.elapsed, h.span]

theorem dueFits (h : w.Becomes w' lists) {clock : Nat} : w'.DueFits clock ↔ w.DueFits clock := by
  rw [DueFits, DueFits, h.elapsed, h.span]

theorem valid (h : w.Becomes w' lists) (hw : w.Valid) : w'.Valid := by
  constructor
  · rw [h.allowance]
    exact h.slots
  · rw [h.allowance]
    exact hw.allowance_pos

theorem trans {w'' : Window κ} {lists' : κ → List Int} (h : w.Becomes w' lists)
    (h' : w'.Becomes w'' lists') : w.Becomes w'' lists' := by
  refine ⟨?_, ?_, h'.deadlines⟩
  · rw [h'.terms, h.terms]
  · rw [← h.allowance]
    exact h'.slots

end Becomes

/-- `w'` is `w` without the deadlines of `k` that lead its list and have passed. -/
def Pruned (clock : Nat) (k : κ) (w w' : Window κ) : Prop :=
  w.Becomes w' (Function.update w.deadlines k (w.live clock k))

/-- `w'` is `w` pruned, with a visit of `k` recorded now. -/
def Recorded (clock : Nat) (k : κ) (w w' : Window κ) : Prop :=
  w.Becomes w' (Function.update w.deadlines k (w.live clock k ++ [w.due clock]))

theorem Valid.becomes_self {w : Window κ} (h : w.Valid) : w.Becomes w w.deadlines :=
  ⟨rfl, h.slots, rfl⟩

/-! ## The ring of one key -/

section Ring

variable {w : Window κ} {k : κ} {i : Nat}

theorem Valid.ring_of_slot (h : w.Valid) (hslot : w.slots.slotOf? k = some i) :
    (w.slots.ring i).Valid ∧ (w.slots.ring i).cells = w.allowance + 1 :=
  h.slots.ring (h.slots.bound_lt (h.slots.slotOf?_eq_some_iff.1 hslot))

theorem deadlines_of_slot (hslot : w.slots.slotOf? k = some i) :
    w.deadlines k = (w.slots.ring i).toList :=
  Slots.deadlines_of_slot hslot

theorem deadlines_of_not_bound (hslot : w.slots.slotOf? k = none) : w.deadlines k = [] :=
  Slots.deadlines_of_not_bound hslot

theorem Valid.length_live_le (h : w.Valid) (clock : Nat) (k : κ) :
    (w.live clock k).length ≤ w.allowance := by
  apply Nat.le_trans (List.dropWhile_sublist _).length_le
  cases hslot : w.slots.slotOf? k with
  | none => simp [deadlines_of_not_bound hslot]
  | some i =>
      obtain ⟨hring, hcells⟩ := h.ring_of_slot hslot
      have hsize := hring.size_le_capacity
      rw [deadlines_of_slot hslot, Ring.length_toList]
      rwa [Ring.capacity, hcells, Nat.add_sub_cancel] at hsize

theorem Valid.becomes_setRing (h : w.Valid) (hslot : w.slots.slotOf? k = some i) {q : Ring}
    (hq : q.Valid) (hcells : q.cells = w.allowance + 1) :
    w.Becomes { w with slots := w.slots.setRing i q }
      (Function.update w.deadlines k q.toList) := by
  refine ⟨rfl, h.slots.setRing (h.slots.slotOf?_eq_some_iff.1 hslot) hq hcells, ?_⟩
  funext k'
  rw [Function.update_apply]
  exact h.slots.deadlines_setRing hslot q k'

theorem Valid.toList_dropExpired (h : w.Valid) (hslot : w.slots.slotOf? k = some i) (clock : Nat) :
    ((w.slots.ring i).dropExpired (w.elapsed clock)).2.toList = w.live clock k := by
  rw [live, deadlines_of_slot hslot]
  exact (h.ring_of_slot hslot).1.toList_dropExpired _

theorem Valid.isFull_dropExpired (h : w.Valid) (hslot : w.slots.slotOf? k = some i)
    (clock : Nat) :
    ((w.slots.ring i).dropExpired (w.elapsed clock)).2.isFull = true ↔ ¬ w.HasRoom clock k := by
  obtain ⟨hring, hcells⟩ := h.ring_of_slot hslot
  have hpruned := hring.dropExpired (w.elapsed clock)
  have hsize := hpruned.size_le_capacity
  rw [hpruned.isFull_iff, HasRoom, ← h.toList_dropExpired hslot clock, Ring.length_toList]
  simp only [Ring.capacity, hring.cells_dropExpired, hcells] at hsize ⊢
  omega

end Ring

/-! ## Visits -/

theorem live_of_not_bound {w : Window κ} {k : κ} (hslot : w.slots.slotOf? k = none)
    (clock : Nat) : w.live clock k = [] := by
  simp [live, deadlines_of_not_bound hslot]

/-- A key without room has as many live deadlines as allowed, and is told to outlast the first. -/
theorem Valid.live_of_full {w : Window κ} (h : w.Valid) {clock : Nat} {k : κ}
    (hfull : ¬ w.HasRoom clock k) :
    ∃ first rest, w.live clock k = first :: rest ∧ rest.length + 1 = w.allowance ∧
      w.elapsed clock ≤ first ∧ w.hint clock k = retryAfter first (w.elapsed clock) := by
  have hlength := h.length_live_le clock k
  cases hlive : w.live clock k with
  | nil =>
      rw [HasRoom, hlive] at hfull
      exact absurd h.allowance_pos hfull
  | cons first rest =>
      have hnow : w.elapsed clock ≤ first := by
        have hhead := List.head?_dropWhile_not (· < w.elapsed clock) (w.deadlines k)
        rw [live] at hlive
        simpa [hlive] using hhead
      rw [HasRoom, hlive, List.length_cons] at hfull
      rw [hlive, List.length_cons] at hlength
      refine ⟨first, rest, rfl, by omega, hnow, ?_⟩
      rw [hint, hlive, List.headD_cons]

/-- A visit that finds room is recorded behind the live deadlines of its key. -/
theorem Valid.visit_of_room {w : Window κ} (h : w.Valid) {clock : Nat} {k : κ}
    (hroom : w.HasRoom clock k) :
    (w.visit clock k).2 = .admitted ∧ Recorded clock k w (w.visit clock k).1 := by
  cases hslot : w.slots.slotOf? k with
  | none =>
      simp only [visit, hslot, true_and]
      refine ⟨rfl, h.slots.bind h.allowance_pos hslot _, ?_⟩
      funext k'
      rw [Function.update_apply, live_of_not_bound hslot, List.nil_append]
      exact h.slots.deadlines_bind h.allowance_pos hslot _ k'
  | some i =>
      obtain ⟨hring, hcells⟩ := h.ring_of_slot hslot
      have hpruned := hring.dropExpired (w.elapsed clock)
      simp only [visit, hslot]
      cases hpush : ((w.slots.ring i).dropExpired (w.elapsed clock)).2.push
          (w.due clock) with
      | error e =>
          have hfull := (Ring.push_eq_error_iff.1 hpush).1
          exact absurd hroom ((h.isFull_dropExpired hslot clock).1 hfull)
      | ok q =>
          have hq := h.becomes_setRing hslot (hpruned.push hpush)
            (by rw [Ring.cells_push hpush, hring.cells_dropExpired, hcells])
          rw [hpruned.toList_push hpush, h.toList_dropExpired hslot] at hq
          exact ⟨rfl, hq⟩

/-- A visit that finds no room prunes its key and tells how long the earliest deadline lasts. -/
theorem Valid.visit_of_full {w : Window κ} (h : w.Valid) {clock : Nat} {k : κ}
    (hfull : ¬ w.HasRoom clock k) :
    (w.visit clock k).2 = .refused (w.hint clock k) ∧ Pruned clock k w (w.visit clock k).1 := by
  cases hslot : w.slots.slotOf? k with
  | none =>
      have hpos := h.allowance_pos
      rw [HasRoom, live_of_not_bound hslot] at hfull
      exact absurd hpos hfull
  | some i =>
      obtain ⟨hring, hcells⟩ := h.ring_of_slot hslot
      have hpruned := hring.dropExpired (w.elapsed clock)
      simp only [visit, hslot]
      cases hpush : ((w.slots.ring i).dropExpired (w.elapsed clock)).2.push
          (w.due clock) with
      | ok q =>
          have hnot := (Ring.push_eq_ok hpush).1
          rw [(h.isFull_dropExpired hslot clock).2 hfull] at hnot
          contradiction
      | error e =>
          have hq := h.becomes_setRing hslot hpruned (by rw [hring.cells_dropExpired, hcells])
          rw [h.toList_dropExpired hslot] at hq
          refine ⟨?_, hq⟩
          simp only [hint, hpruned.peek_eq, h.toList_dropExpired hslot]
          cases w.live clock k <;> rfl

theorem Valid.visit_becomes {w : Window κ} (h : w.Valid) (clock : Nat) (k : κ) :
    ∃ lists, w.Becomes (w.visit clock k).1 lists := by
  by_cases hroom : w.HasRoom clock k
  · exact ⟨_, (h.visit_of_room hroom).2⟩
  · exact ⟨_, (h.visit_of_full hroom).2⟩

/-! ## Counts and rollbacks -/

theorem Valid.remaining_pruned {w : Window κ} (h : w.Valid) (clock : Nat) (k : κ) :
    (w.remaining clock k).2 = w.allowance - (w.live clock k).length ∧
      Pruned clock k w (w.remaining clock k).1 := by
  cases hslot : w.slots.slotOf? k with
  | none =>
      simp only [remaining, hslot, live_of_not_bound hslot, List.length_nil, Nat.sub_zero, true_and]
      rw [Pruned, live_of_not_bound hslot, ← deadlines_of_not_bound hslot,
        Function.update_eq_self]
      exact h.becomes_self
  | some i =>
      obtain ⟨hring, hcells⟩ := h.ring_of_slot hslot
      have hpruned := hring.dropExpired (w.elapsed clock)
      have hq := h.becomes_setRing hslot hpruned (by rw [hring.cells_dropExpired, hcells])
      rw [h.toList_dropExpired hslot] at hq
      simp only [remaining, hslot]
      refine ⟨?_, hq⟩
      rw [Ring.room, Ring.capacity, hring.cells_dropExpired, hcells, ← Ring.length_toList,
        h.toList_dropExpired hslot, Nat.add_sub_cancel]

theorem Valid.becomes_release {w : Window κ} (h : w.Valid) {k : κ} {i : Nat}
    (hslot : w.slots.slotOf? k = some i) (hempty : (w.slots.ring i).toList = []) :
    w.Becomes { w with slots := w.slots.release k i } w.deadlines := by
  refine ⟨rfl, h.slots.release hslot hempty, ?_⟩
  funext k'
  refine (Slots.deadlines_release w.slots k k' i).trans ?_
  split
  next heq => rw [heq, deadlines_of_slot hslot, hempty]
  next => rfl

theorem Valid.rollback_of_slot {w : Window κ} (h : w.Valid) {k : κ} {i : Nat}
    (hslot : w.slots.slotOf? k = some i) :
    ∃ q : Ring, q.Valid ∧ q.cells = w.allowance + 1 ∧ q.toList = (w.deadlines k).dropLast ∧
      w.rollback k = { w with slots :=
        if q.isEmpty then (w.slots.setRing i q).release k i else w.slots.setRing i q } := by
  obtain ⟨hring, hcells⟩ := h.ring_of_slot hslot
  rw [deadlines_of_slot hslot]
  cases hlast : (w.slots.ring i).popLast with
  | error e =>
      have hempty := (Ring.popLast_eq_error_iff.1 hlast).1
      rw [hring.isEmpty_iff_toList] at hempty
      refine ⟨w.slots.ring i, hring, hcells, by simp [hempty], ?_⟩
      simp only [rollback, hslot, hlast]
  | ok r =>
      obtain ⟨d, q⟩ := r
      refine ⟨q, hring.popLast hlast, (Ring.cells_popLast hlast).trans hcells, ?_, ?_⟩
      · rw [hring.toList_popLast hlast, List.dropLast_concat]
      · simp only [rollback, hslot, hlast]

theorem Valid.rollback_becomes {w : Window κ} (h : w.Valid) (k : κ) :
    w.Becomes (w.rollback k) (Function.update w.deadlines k (w.deadlines k).dropLast) := by
  cases hslot : w.slots.slotOf? k with
  | none =>
      simp only [rollback, hslot]
      rw [deadlines_of_not_bound hslot, List.dropLast_nil, ← deadlines_of_not_bound hslot,
        Function.update_eq_self]
      exact h.becomes_self
  | some i =>
      obtain ⟨q, hq, hcells, hlist, heq⟩ := h.rollback_of_slot hslot
      have hset := h.becomes_setRing hslot hq hcells
      rw [hlist] at hset
      rw [heq]
      split
      next hempty =>
        have hslot' : (w.slots.setRing i q).slotOf? k = some i := by
          rw [Slots.slotOf?_setRing, hslot]
        have hnil : ((w.slots.setRing i q).ring i).toList = [] := by
          rw [← Slots.deadlines_of_slot hslot']
          refine (congrFun hset.deadlines k).trans ?_
          rw [Function.update_self, ← hlist, hq.isEmpty_iff_toList.1 hempty]
        have hrelease := (hset.valid h).becomes_release hslot' hnil
        rw [hset.deadlines] at hrelease
        exact hset.trans hrelease
      next => exact hset

/-- Taking back the visit just recorded leaves the live deadlines of its key. -/
theorem Valid.rollback_visit {w : Window κ} (h : w.Valid) {clock : Nat} {k : κ}
    (hroom : w.HasRoom clock k) :
    Pruned clock k w ((w.visit clock k).1.rollback k) := by
  have hvisit := (h.visit_of_room hroom).2
  have hback := (hvisit.valid h).rollback_becomes k
  rw [hvisit.deadlines, Function.update_self, List.dropLast_concat, Function.update_idem] at hback
  exact hvisit.trans hback

/-! ## Bindings -/

theorem mem_online_iff {w : Window κ} {k : κ} : k ∈ w.online ↔ w.slots.slotOf? k ≠ none := by
  rw [Ne, Slots.slotOf?_eq_none_iff, not_not]
  rfl

theorem Valid.mem_online_visit {w : Window κ} (h : w.Valid) {clock : Nat} {k k' : κ} :
    k' ∈ (w.visit clock k).1.online ↔ k' ∈ w.online ∨ k' = k := by
  cases hslot : w.slots.slotOf? k with
  | none =>
      simp only [visit, hslot, online]
      rw [h.slots.keys_bind h.allowance_pos, List.mem_append, List.mem_singleton]
  | some i =>
      have hbound : k' = k → k' ∈ w.online := by
        rintro rfl
        simp [mem_online_iff, hslot]
      rw [or_iff_left_of_imp hbound]
      simp only [visit, hslot]
      split <;> rfl

theorem online_remaining (w : Window κ) (clock : Nat) (k : κ) :
    (w.remaining clock k).1.online = w.online := by
  unfold remaining
  split <;> rfl

/-- A rollback that leaves no deadline gives the slot of its key back. -/
theorem Valid.mem_online_rollback {w : Window κ} (h : w.Valid) {k k' : κ} :
    k' ∈ (w.rollback k).online ↔
      k' ∈ w.online ∧ (k' = k → (w.deadlines k).dropLast ≠ []) := by
  cases hslot : w.slots.slotOf? k with
  | none =>
      have hunbound : k' = k → k' ∉ w.online := by
        rintro rfl
        simp [mem_online_iff, hslot]
      simp only [rollback, hslot]
      exact (and_iff_left_of_imp fun hmem heq => absurd hmem (hunbound heq)).symm
  | some i =>
      obtain ⟨q, hq, -, hlist, heq⟩ := h.rollback_of_slot hslot
      rw [← hlist, heq]
      by_cases hempty : q.isEmpty = true
      · have hnil := hq.isEmpty_iff_toList.1 hempty
        simp only [hempty, if_true, online, Slots.mem_keys_release, hnil, ne_eq, not_true_eq_false]
        rfl
      · have hne := mt hq.isEmpty_iff_toList.2 hempty
        simp only [hempty, Bool.false_eq_true, if_false, ne_eq, hne, not_false_eq_true,
          implies_true, and_true]
        rfl

end Throttle.Window
