import Throttle.Ring

/-!
What each operation of a deadline ring does to its list of deadlines.

A ring is valid when both ends lie within its buffer; rings made by `ofCapacity` are, and every
operation keeps it so. The list of a valid ring is as long as `size` says and never longer than the
capacity; `push` appends to it, `pop` and `popLast` take its first and last element, and
`dropExpired` drops the leading deadlines before the given instant.
-/

namespace Throttle.Ring

/-- Both ends lie within the buffer. -/
structure Valid (q : Ring) : Prop where
  head_lt : q.head < q.cells
  tail_lt : q.tail < q.cells

theorem mod_cells {i n : Nat} (h : i < 2 * n) : i % n = if i < n then i else i - n := by
  split
  next hlt => exact Nat.mod_eq_of_lt hlt
  next hge =>
    rw [Nat.mod_eq_sub_mod (by omega), Nat.mod_eq_of_lt (by omega)]

/-! ## Empty rings -/

@[simp]
theorem cells_ofCapacity (capacity : Nat) : (ofCapacity capacity).cells = capacity + 1 := by
  simp [cells, ofCapacity]

@[simp]
theorem capacity_ofCapacity (n : Nat) : (ofCapacity n).capacity = n := by
  simp [capacity]

theorem valid_ofCapacity (capacity : Nat) : (ofCapacity capacity).Valid := by
  constructor <;> simp [ofCapacity, cells]

@[simp]
theorem toList_ofCapacity (capacity : Nat) : (ofCapacity capacity).toList = [] := by
  simp [toList, size, cells, ofCapacity]

/-! ## Counts -/

@[simp]
theorem length_toList (q : Ring) : q.toList.length = q.size := by
  simp [toList]

theorem Valid.cells_pos {q : Ring} (h : q.Valid) : 0 < q.cells :=
  Nat.zero_lt_of_lt h.head_lt

theorem Valid.size_eq {q : Ring} (h : q.Valid) :
    q.size = if q.head ≤ q.tail then q.tail - q.head else q.tail + q.cells - q.head := by
  have := h.head_lt
  have := h.tail_lt
  rw [size, mod_cells (by omega)]
  split <;> split <;> omega

theorem Valid.size_le_capacity {q : Ring} (h : q.Valid) : q.size ≤ q.capacity := by
  have := h.head_lt
  have := h.tail_lt
  rw [h.size_eq, capacity]
  split <;> omega

theorem Valid.isEmpty_iff {q : Ring} (h : q.Valid) : q.isEmpty = true ↔ q.size = 0 := by
  have := h.head_lt
  have := h.tail_lt
  rw [h.size_eq, isEmpty, beq_iff_eq]
  split <;> omega

theorem Valid.isEmpty_iff_toList {q : Ring} (h : q.Valid) :
    q.isEmpty = true ↔ q.toList = [] := by
  rw [h.isEmpty_iff, ← List.length_eq_zero_iff, length_toList]

theorem Valid.isFull_iff {q : Ring} (h : q.Valid) : q.isFull = true ↔ q.size = q.capacity := by
  have := h.head_lt
  have := h.tail_lt
  rw [h.size_eq, isFull, beq_iff_eq, mod_cells (by omega), capacity]
  split <;> split <;> omega

/-! ## The cells of the view -/

theorem getElem?_toList (q : Ring) (i : Nat) :
    q.toList[i]? = if i < q.size then some (q.cell ((q.head + i) % q.cells)) else none := by
  rw [toList, List.getElem?_map]
  split
  next hlt => simp [List.getElem?_range hlt]
  next hge => simp [Nat.le_of_not_lt hge]

/-- Occupied cells lie between the ends, around the end of the buffer. -/
theorem Valid.occupied_ne_tail {q : Ring} (h : q.Valid) {i : Nat} (hi : i < q.size) :
    (q.head + i) % q.cells ≠ q.tail := by
  have := h.head_lt
  have := h.tail_lt
  rw [h.size_eq] at hi
  rw [mod_cells (by split at hi <;> omega)]
  split at hi <;> split <;> omega

theorem Valid.tail_eq {q : Ring} (h : q.Valid) : (q.head + q.size) % q.cells = q.tail := by
  have := h.head_lt
  have := h.tail_lt
  rw [h.size_eq, mod_cells (by split <;> omega)]
  split <;> split <;> omega

/-! ## Operations -/

theorem push_eq_error_iff {q : Ring} {d : Int} {e : Error} :
    q.push d = .error e ↔ q.isFull = true ∧ e = .full := by
  rw [push]
  split
  next hyes => exact ⟨fun h => ⟨hyes, (Except.error.inj h).symm⟩, fun h => h.2 ▸ rfl⟩
  next hno => exact ⟨(nomatch ·), fun h => absurd h.1 hno⟩

theorem push_eq_ok {q q' : Ring} {d : Int} (hq : q.push d = .ok q') :
    q.isFull = false ∧ q' = ⟨q.buffer.setIfInBounds q.tail d, q.head, (q.tail + 1) % q.cells⟩ := by
  rw [push] at hq
  split at hq
  next => cases hq
  next hfull => exact ⟨by simpa using hfull, (Except.ok.inj hq).symm⟩

theorem cells_push {q q' : Ring} {d : Int} (hq : q.push d = .ok q') : q'.cells = q.cells := by
  obtain ⟨-, rfl⟩ := push_eq_ok hq
  simp [cells]

theorem Valid.push {q q' : Ring} {d : Int} (h : q.Valid) (hq : q.push d = .ok q') : q'.Valid := by
  have hcells := cells_push hq
  obtain ⟨-, rfl⟩ := push_eq_ok hq
  constructor
  · rw [hcells]; exact h.head_lt
  · rw [hcells]; exact Nat.mod_lt _ h.cells_pos

theorem Valid.size_push {q q' : Ring} {d : Int} (h : q.Valid) (hq : q.push d = .ok q') :
    q'.size = q.size + 1 := by
  have hvalid := h.push hq
  have hcells := cells_push hq
  obtain ⟨hfull, rfl⟩ := push_eq_ok hq
  have := h.head_lt
  have := h.tail_lt
  rw [isFull, beq_eq_false_iff_ne, mod_cells (by omega)] at hfull
  rw [hvalid.size_eq, h.size_eq, hcells]
  simp only [mod_cells (show q.tail + 1 < 2 * q.cells by omega)] at hfull ⊢
  split at hfull <;> (repeat' split) <;> omega

theorem Valid.toList_push {q q' : Ring} {d : Int} (h : q.Valid) (hq : q.push d = .ok q') :
    q'.toList = q.toList ++ [d] := by
  have hsize := h.size_push hq
  have hcells := cells_push hq
  obtain ⟨-, rfl⟩ := push_eq_ok hq
  apply List.ext_getElem?
  intro i
  rw [getElem?_toList, hsize, hcells]
  rcases Nat.lt_trichotomy i q.size with hlt | rfl | hgt
  · rw [List.getElem?_append_left (by simpa using hlt), getElem?_toList, if_pos hlt,
      if_pos (Nat.lt_succ_of_lt hlt)]
    have hne := h.occupied_ne_tail hlt
    simp only [cell]
    rw [Array.getElem?_setIfInBounds_ne hne.symm]
  · rw [List.getElem?_append_right (by simp), if_pos (Nat.lt_succ_self _)]
    have htail := h.tail_lt
    simp only [cell, h.tail_eq]
    rw [Array.getElem?_setIfInBounds_self]
    simp [show q.tail < q.buffer.size from htail]
  · rw [List.getElem?_append_right (by simp; omega), if_neg (by omega)]
    simp
    omega

theorem pop_eq_error_iff {q : Ring} {e : Error} :
    q.pop = .error e ↔ q.isEmpty = true ∧ e = .empty := by
  rw [pop]
  split
  next hyes => exact ⟨fun h => ⟨hyes, (Except.error.inj h).symm⟩, fun h => h.2 ▸ rfl⟩
  next hno => exact ⟨(nomatch ·), fun h => absurd h.1 hno⟩

theorem pop_eq_ok {q q' : Ring} {d : Int} (hq : q.pop = .ok (d, q')) :
    q.isEmpty = false ∧ d = q.cell q.head ∧ q' = { q with head := (q.head + 1) % q.cells } := by
  rw [pop] at hq
  split at hq
  next => cases hq
  next hempty =>
    have heq := Prod.mk.inj (Except.ok.inj hq)
    exact ⟨by simpa using hempty, heq.1.symm, heq.2.symm⟩

theorem Valid.pop {q q' : Ring} {d : Int} (h : q.Valid) (hq : q.pop = .ok (d, q')) :
    q'.Valid := by
  obtain ⟨-, -, rfl⟩ := pop_eq_ok hq
  exact ⟨Nat.mod_lt _ h.cells_pos, h.tail_lt⟩

theorem cells_pop {q q' : Ring} {d : Int} (hq : q.pop = .ok (d, q')) : q'.cells = q.cells := by
  obtain ⟨-, -, rfl⟩ := pop_eq_ok hq
  rfl

theorem Valid.size_pop {q q' : Ring} {d : Int} (h : q.Valid) (hq : q.pop = .ok (d, q')) :
    q.size = q'.size + 1 := by
  have hvalid := h.pop hq
  obtain ⟨hempty, -, rfl⟩ := pop_eq_ok hq
  have := h.head_lt
  have := h.tail_lt
  rw [isEmpty, beq_eq_false_iff_ne] at hempty
  rw [hvalid.size_eq, h.size_eq]
  have hnext : q.head + 1 < 2 * q.buffer.size := by simp only [cells] at *; omega
  simp only [cells, mod_cells hnext]
  simp only [cells] at *
  split <;> split <;> split <;> omega

theorem Valid.toList_pop {q q' : Ring} {d : Int} (h : q.Valid) (hq : q.pop = .ok (d, q')) :
    q.toList = d :: q'.toList := by
  have hsize := h.size_pop hq
  obtain ⟨-, rfl, rfl⟩ := pop_eq_ok hq
  have := h.head_lt
  apply List.ext_getElem?
  intro i
  cases i with
  | zero =>
      rw [getElem?_toList, if_pos (by omega)]
      simp [Nat.mod_eq_of_lt h.head_lt]
  | succ i =>
      rw [List.getElem?_cons_succ, getElem?_toList, getElem?_toList, hsize]
      simp only [Nat.add_lt_add_iff_right]
      congr 2
      simp only [cell, cells]
      rw [Nat.mod_add_mod, Nat.add_assoc, Nat.add_comm 1 i]

theorem Valid.peek_eq {q : Ring} (h : q.Valid) : q.peek = q.toList.head? := by
  rw [List.head?_eq_getElem?, getElem?_toList, peek, Nat.add_zero, Nat.mod_eq_of_lt h.head_lt]
  by_cases hempty : q.isEmpty = true
  · rw [if_pos hempty, if_neg (by simpa using h.isEmpty_iff.1 hempty)]
  · rw [if_neg hempty, if_pos (Nat.pos_of_ne_zero fun hzero => hempty (h.isEmpty_iff.2 hzero))]

theorem popLast_eq_error_iff {q : Ring} {e : Error} :
    q.popLast = .error e ↔ q.isEmpty = true ∧ e = .empty := by
  rw [popLast]
  split
  next hyes => exact ⟨fun h => ⟨hyes, (Except.error.inj h).symm⟩, fun h => h.2 ▸ rfl⟩
  next hno => exact ⟨(nomatch ·), fun h => absurd h.1 hno⟩

theorem popLast_eq_ok {q q' : Ring} {d : Int} (hq : q.popLast = .ok (d, q')) :
    q.isEmpty = false ∧ d = q.cell ((q.tail + q.cells - 1) % q.cells) ∧
      q' = { q with tail := (q.tail + q.cells - 1) % q.cells } := by
  rw [popLast] at hq
  split at hq
  next => cases hq
  next hempty =>
    have heq := Prod.mk.inj (Except.ok.inj hq)
    exact ⟨by simpa using hempty, heq.1.symm, heq.2.symm⟩

theorem Valid.popLast {q q' : Ring} {d : Int} (h : q.Valid) (hq : q.popLast = .ok (d, q')) :
    q'.Valid := by
  obtain ⟨-, -, rfl⟩ := popLast_eq_ok hq
  exact ⟨h.head_lt, Nat.mod_lt _ h.cells_pos⟩

theorem cells_popLast {q q' : Ring} {d : Int} (hq : q.popLast = .ok (d, q')) :
    q'.cells = q.cells := by
  obtain ⟨-, -, rfl⟩ := popLast_eq_ok hq
  rfl

theorem Valid.size_popLast {q q' : Ring} {d : Int} (h : q.Valid) (hq : q.popLast = .ok (d, q')) :
    q.size = q'.size + 1 := by
  have hvalid := h.popLast hq
  obtain ⟨hempty, -, rfl⟩ := popLast_eq_ok hq
  have := h.head_lt
  have := h.tail_lt
  rw [isEmpty, beq_eq_false_iff_ne] at hempty
  rw [hvalid.size_eq, h.size_eq]
  simp only [cells] at *
  simp only [mod_cells (show q.tail + q.buffer.size - 1 < 2 * q.buffer.size by omega)]
  split <;> split <;> split <;> omega

theorem Valid.toList_popLast {q q' : Ring} {d : Int} (h : q.Valid)
    (hq : q.popLast = .ok (d, q')) : q.toList = q'.toList ++ [d] := by
  have hsize := h.size_popLast hq
  have htail := (h.popLast hq).tail_eq
  obtain ⟨-, rfl, rfl⟩ := popLast_eq_ok hq
  apply List.ext_getElem?
  intro i
  rw [getElem?_toList, hsize]
  generalize hq' : ({ q with tail := (q.tail + q.cells - 1) % q.cells } : Ring) = q' at *
  have hcell_eq : ∀ j, q'.cell j = q.cell j := by subst hq'; exact fun _ => rfl
  have hcells_eq : q'.cells = q.cells := by subst hq'; rfl
  have hhead_eq : q'.head = q.head := by subst hq'; rfl
  have htail_eq : q'.tail = (q.tail + q.cells - 1) % q.cells := by subst hq'; rfl
  rw [hcells_eq, hhead_eq, htail_eq] at htail
  rcases Nat.lt_trichotomy i q'.size with hlt | rfl | hgt
  · rw [List.getElem?_append_left (by simpa using hlt), getElem?_toList, if_pos hlt,
      if_pos (Nat.lt_succ_of_lt hlt), hcell_eq, hcells_eq, hhead_eq]
  · rw [List.getElem?_append_right (by simp), if_pos (Nat.lt_succ_self _), htail]
    simp
  · rw [List.getElem?_append_right (by simp; omega), if_neg (by omega)]
    simp
    omega

/-! ## Pruning -/

theorem Valid.dropWhile_popExpired (now : Int) :
    ∀ (limit : Nat) {q : Ring}, q.Valid → q.size ≤ limit →
      (popExpired now limit q).2.Valid ∧ (popExpired now limit q).2.cells = q.cells ∧
        (popExpired now limit q).2.toList = q.toList.dropWhile (· < now) ∧
        (popExpired now limit q).1 = (q.toList.takeWhile (· < now)).length
  | 0, q, h, hle => by
      have hnil : q.toList = [] := List.length_eq_zero_iff.1 (by simpa using hle)
      simp [popExpired, h, hnil]
  | limit + 1, q, h, hle => by
      rw [popExpired, h.peek_eq]
      cases hlist : q.toList with
      | nil => simp [h, hlist]
      | cons d rest =>
          simp only [List.head?_cons]
          by_cases hlt : d < now
          · have hempty : q.isEmpty = false := by
              rw [Bool.eq_false_iff, ne_eq, h.isEmpty_iff_toList, hlist]
              simp
            cases hpop : q.pop with
            | error e => simp [(pop_eq_error_iff.1 hpop).1] at hempty
            | ok r =>
                obtain ⟨d', q'⟩ := r
                have hview := h.toList_pop hpop
                rw [hlist] at hview
                obtain ⟨rfl, rfl⟩ := List.cons.inj hview
                have hsize := h.size_pop hpop
                obtain ⟨hvalid, hcells, hlist', hcount⟩ :=
                  Valid.dropWhile_popExpired now limit (h.pop hpop) (by omega)
                simp only [if_pos hlt]
                refine ⟨hvalid, hcells.trans (cells_pop hpop), ?_, ?_⟩
                · simp [hlist', hlt]
                · simp [hcount, hlt]
          · simp [hlt, h, hlist]

theorem Valid.dropExpired {q : Ring} (h : q.Valid) (now : Int) : (q.dropExpired now).2.Valid :=
  (dropWhile_popExpired now q.size h (Nat.le_refl _)).1

theorem Valid.cells_dropExpired {q : Ring} (h : q.Valid) (now : Int) :
    (q.dropExpired now).2.cells = q.cells :=
  (dropWhile_popExpired now q.size h (Nat.le_refl _)).2.1

/-- Pruning drops the leading deadlines before the given instant. -/
theorem Valid.toList_dropExpired {q : Ring} (h : q.Valid) (now : Int) :
    (q.dropExpired now).2.toList = q.toList.dropWhile (· < now) :=
  (dropWhile_popExpired now q.size h (Nat.le_refl _)).2.2.1

theorem Valid.count_dropExpired {q : Ring} (h : q.Valid) (now : Int) :
    (q.dropExpired now).1 = (q.toList.takeWhile (· < now)).length :=
  (dropWhile_popExpired now q.size h (Nat.le_refl _)).2.2.2

end Throttle.Ring
