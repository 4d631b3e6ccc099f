import Throttle.Proofs.Tracking

/-!
# A ring of deadlines is a bounded double-ended list

Wherever the occupied stretch of a ring has come to lie in its buffer, the ring answers as its list
of deadlines does.  `Command.onList` says what a command does to a list that may hold `capacity`
deadlines.  A step of a valid ring is that step on its list, and so is a run, by induction on the
commands.  `IndicesFit` collects what the ring computes with the positions of its ends.
-/

namespace Throttle.Ring

/-! ## Commands on a list -/

def Command.onList (capacity : Nat) (xs : List Int) : Command → List Int × Answer
  | .push d => if xs.length < capacity then (xs ++ [d], .done) else (xs, .failed .full)
  | .pop =>
      match xs with
      | [] => ([], .failed .empty)
      | d :: rest => (rest, .deadline d)
  | .popLast =>
      match xs.getLast? with
      | none => (xs, .failed .empty)
      | some d => (xs.dropLast, .deadline d)
  | .peek =>
      match xs with
      | [] => ([], .nothing)
      | d :: rest => (d :: rest, .deadline d)
  | .prune now => (xs.dropWhile (· < now), .count (xs.takeWhile (· < now)).length)
  | .capacity => (xs, .count capacity)

/-- Commands in turn, and the answers to them. -/
def runWith {σ : Type} (step : σ → Command → σ × Answer) (s : σ) :
    List Command → σ × List Answer
  | [] => (s, [])
  | c :: rest =>
      let (s, answer) := step s c
      let (s, answers) := runWith step s rest
      (s, answer :: answers)

variable {q : Ring}

/-! ## One step -/

theorem Valid.isFull_iff_toList (h : q.Valid) :
    q.isFull = true ↔ q.toList.length = q.capacity := by
  rw [h.isFull_iff, length_toList]

theorem Valid.push_onList (h : q.Valid) (d : Int) :
    ((q.step (.push d)).1.toList, (q.step (.push d)).2) =
      Command.onList q.capacity q.toList (.push d) := by
  have hle := h.size_le_capacity
  rw [← length_toList] at hle
  cases hpush : q.push d with
  | error e =>
      obtain ⟨hfull, rfl⟩ := push_eq_error_iff.1 hpush
      rw [h.isFull_iff_toList] at hfull
      simp [step, hpush, Command.onList, hfull]
  | ok q' =>
      have hroom : q.toList.length ≠ q.capacity := by
        rw [Ne, ← h.isFull_iff_toList, (push_eq_ok hpush).1]
        exact Bool.false_ne_true
      have hlt : q.toList.length < q.capacity := by omega
      simp only [step, hpush, Command.onList, if_pos hlt, h.toList_push hpush]

theorem Valid.pop_onList (h : q.Valid) :
    ((q.step .pop).1.toList, (q.step .pop).2) = Command.onList q.capacity q.toList .pop := by
  cases hpop : q.pop with
  | error e =>
      obtain ⟨hempty, rfl⟩ := pop_eq_error_iff.1 hpop
      simp [step, hpop, Command.onList, h.isEmpty_iff_toList.1 hempty]
  | ok r =>
      obtain ⟨d, q'⟩ := r
      simp only [step, hpop, Command.onList, h.toList_pop hpop]

theorem Valid.popLast_onList (h : q.Valid) :
    ((q.step .popLast).1.toList, (q.step .popLast).2) =
      Command.onList q.capacity q.toList .popLast := by
  cases hpop : q.popLast with
  | error e =>
      obtain ⟨hempty, rfl⟩ := popLast_eq_error_iff.1 hpop
      simp [step, hpop, Command.onList, h.isEmpty_iff_toList.1 hempty]
  | ok r =>
      obtain ⟨d, q'⟩ := r
      simp only [step, hpop, Command.onList, h.toList_popLast hpop, List.getLast?_concat,
        List.dropLast_concat]

theorem Valid.step_onList (h : q.Valid) (c : Command) :
    ((q.step c).1.toList, (q.step c).2) = c.onList q.capacity q.toList := by
  cases c with
  | push d => exact h.push_onList d
  | pop => exact h.pop_onList
  | popLast => exact h.popLast_onList
  | peek =>
      rw [step, h.peek_eq]
      cases q.toList <;> simp [Command.onList]
  | prune now =>
      simp only [step, Command.onList, h.toList_dropExpired, h.count_dropExpired]
  | capacity => rfl

theorem Valid.step (h : q.Valid) (c : Command) :
    (q.step c).1.Valid ∧ (q.step c).1.cells = q.cells := by
  cases c with
  | push d =>
      cases hpush : q.push d with
      | error e => simp [Ring.step, hpush, h]
      | ok q' => simp [Ring.step, hpush, h.push hpush, cells_push hpush]
  | pop =>
      cases hpop : q.pop with
      | error e => simp [Ring.step, hpop, h]
      | ok r => simp [Ring.step, hpop, h.pop hpop, cells_pop hpop]
  | popLast =>
      cases hpop : q.popLast with
      | error e => simp [Ring.step, hpop, h]
      | ok r => simp [Ring.step, hpop, h.popLast hpop, cells_popLast hpop]
  | peek => exact ⟨h, rfl⟩
  | prune now => exact ⟨h.dropExpired now, h.cells_dropExpired now⟩
  | capacity => exact ⟨h, rfl⟩

theorem step_of_failed {c : Command} {e : Error} (h : (q.step c).2 = .failed e) :
    (q.step c).1 = q := by
  cases c with
  | push d => cases hpush : q.push d <;> simp_all [Ring.step]
  | pop => cases hpop : q.pop <;> simp_all [Ring.step]
  | popLast => cases hpop : q.popLast <;> simp_all [Ring.step]
  | prune now => simp [Ring.step] at h
  | peek => rfl
  | capacity => rfl

/-! ## Runs -/

theorem Valid.run_onList (h : q.Valid) (commands : List Command) :
    (runWith Ring.step q commands).1.Valid ∧
      (runWith Ring.step q commands).1.cells = q.cells ∧
      ((runWith Ring.step q commands).1.toList, (runWith Ring.step q commands).2) =
        runWith (fun xs c => c.onList q.capacity xs) q.toList commands := by
  induction commands generalizing q with
  | nil => exact ⟨h, rfl, rfl⟩
  | cons c rest ih =>
      obtain ⟨hvalid, hcells⟩ := h.step c
      obtain ⟨hend, hsame, hrest⟩ := ih hvalid
      have hcapacity : (q.step c).1.capacity = q.capacity := by
        rw [Ring.capacity, hcells, Ring.capacity]
      refine ⟨hend, hsame.trans hcells, ?_⟩
      rw [hcapacity] at hrest
      obtain ⟨hlist, hanswers⟩ := Prod.mk.inj hrest
      simp only [runWith, ← h.step_onList c]
      rw [hlist, hanswers]

/-! ## Indices -/

/-- The cells that are read or written exist, no sum wraps, and no difference is negative. -/
structure IndicesFit (q : Ring) : Prop where
  head_lt : q.head < q.buffer.size
  tail_lt : q.tail < q.buffer.size
  last_lt : (q.tail + q.cells - 1) % q.cells < q.buffer.size
  item_lt : ∀ i < q.size, (q.head + i) % q.cells < q.buffer.size
  head_next : q.head + 1 < UInt64.size
  tail_next : q.tail + 1 < UInt64.size
  tail_around : q.tail + q.cells < UInt64.size
  item_sum : ∀ i < q.size, q.head + i < UInt64.size
  cells_pos : 1 ≤ q.cells
  head_le : q.head ≤ q.tail + q.cells
  size_le : q.size ≤ q.capacity

theorem Valid.indicesFit (h : q.Valid) (hcells : q.cells * 8 < 2 ^ 63) : q.IndicesFit := by
  have hhead := h.head_lt
  have htail := h.tail_lt
  have hsize := h.size_le_capacity
  have hmod : ∀ n, n % q.cells < q.cells := fun n => Nat.mod_lt n h.cells_pos
  have hword : UInt64.size = 2 ^ 64 := rfl
  exact
    { head_lt := hhead
      tail_lt := htail
      last_lt := hmod _
      item_lt := fun i _ => hmod _
      head_next := by omega
      tail_next := by omega
      tail_around := by omega
      item_sum := by
        intro i hi
        rw [capacity] at hsize
        omega
      cells_pos := h.cells_pos
      head_le := by omega
      size_le := hsize }

/--
A ring whose buffer can be allocated, eight bytes a cell, is a list of at most `capacity` deadlines
to whoever pushes, pops and prunes it, in any order and any number of times.
-/
theorem answers_as_bounded_list (capacity : Nat) (hcapacity : (capacity + 1) * 8 < 2 ^ 63)
    (commands : List Command) :
    let r := runWith Ring.step (.ofCapacity capacity) commands
    let xs := r.1.toList
    (xs, r.2) = runWith (fun xs c => c.onList capacity xs) [] commands ∧
      r.1.size = xs.length ∧ xs.length ≤ capacity ∧ r.1.room = capacity - xs.length ∧
      (r.1.isEmpty = true ↔ xs.length = 0) ∧ (r.1.isFull = true ↔ xs.length = capacity) ∧
      (∀ c e, (r.1.step c).2 = .failed e → (r.1.step c).1 = r.1) ∧
      (xs.Pairwise (· ≤ ·) → ∀ now, (r.1.dropExpired now).2.toList = xs.filter (now ≤ ·)) ∧
      r.1.IndicesFit := by
  intro r xs
  obtain ⟨hvalid, hcells, hrun⟩ := (valid_ofCapacity capacity).run_onList commands
  rw [capacity_ofCapacity, toList_ofCapacity] at hrun
  rw [cells_ofCapacity] at hcells
  have hsame : r.1.capacity = capacity := by
    rw [Ring.capacity, hcells, Nat.add_sub_cancel]
  have hlength : xs.length = r.1.size := length_toList r.1
  refine ⟨hrun, hlength.symm, ?_, ?_, ?_, ?_, fun c e => step_of_failed, ?_, ?_⟩
  · rw [hlength, ← hsame]
    exact hvalid.size_le_capacity
  · rw [room, hsame, hlength]
  · rw [hvalid.isEmpty_iff, hlength]
  · rw [hvalid.isFull_iff, hsame, hlength]
  · intro hsorted now
    rw [hvalid.toList_dropExpired]
    exact dropWhile_lt_eq_filter hsorted now
  · apply hvalid.indicesFit
    rwa [hcells]

/-- In the buffer of a single cell a ring is full and empty at once. -/
example : (runWith Ring.step (.ofCapacity 0) [.push 1, .pop, .popLast, .peek, .prune 9]).2 =
    [.failed .full, .failed .empty, .failed .empty, .nothing, .count 0] := by
  decide

/-- Three cells, the occupied stretch around the end of the buffer, and deadlines out of order. -/
theorem list_around_the_end :
    let commands : List Command := [.pop, .push 5, .pop, .push 7, .push 3, .push 9, .prune 5,
      .popLast, .push 8, .peek, .prune 8, .push 6]
    let r := runWith Ring.step (.ofCapacity 2) commands
    (2 + 1) * 8 < 2 ^ 63 ∧ r.1.head = 2 ∧ r.1.tail = 1 ∧
      (r.1.toList, r.2) = ([8, 6], [.failed .empty, .done, .deadline 5, .done, .done, .failed .full,
        .count 0, .deadline 3, .done, .deadline 7, .count 1, .done]) ∧
      r.1.IndicesFit := by
  intro commands r
  obtain ⟨hrun, -, -, -, -, -, -, -, hindices⟩ :=
    answers_as_bounded_list 2 (by decide) commands
  exact ⟨by decide, by decide, by decide, hrun, hindices⟩

end Throttle.Ring
