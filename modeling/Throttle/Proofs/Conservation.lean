import Throttle.Proofs.Order

/-!
# No slot is lost, shared or made without need

The slots of a window are its bound and its free slots, each once, and a free slot holds nothing.
That is `Slots.Valid`, which every operation keeps, whatever the clock says and in whatever order
the bindings are walked through.  The number of slots never falls below the estimate; it rises only
where every slot is bound, so it never exceeds both the estimate and the most keys bound at once.
-/

namespace Throttle

namespace Slots

variable {κ : Type} {s s' : Slots κ} {allowance : Nat}

/-! ## The number of slots -/

theorem Valid.size_eq (h : s.Valid allowance) :
    s.rings.size = s.bound.length + s.free.length := by
  simpa using h.indices.length_eq.symm

theorem size_takeSlot (s : Slots κ) (allowance : Nat) :
    (s.takeSlot allowance).2.rings.size =
      if s.free = [] then s.rings.size + 1 else s.rings.size := by
  unfold takeSlot
  cases s.free <;> simp

/-- A slot is made only for a key that finds every other one bound. -/
theorem Valid.size_bind (h : s.Valid allowance) (hpos : 0 < allowance) (k : κ) (d : Int) :
    (s.bind allowance k d).bound.length = s.bound.length + 1 ∧
      (s.bind allowance k d).rings.size = max s.rings.size (s.bound.length + 1) := by
  obtain ⟨q, -, heq⟩ := bind_eq (k := k) (d := d) h hpos
  have hsize := h.size_eq
  rw [heq, size_setRing]
  refine ⟨by simp [Slots.setRing], ?_⟩
  change (s.takeSlot allowance).2.rings.size = _
  rw [size_takeSlot]
  cases hfree : s.free with
  | nil => simp_all
  | cons i free =>
      simp_all

theorem size_expire (s : Slots κ) (now : Int) : (s.expire now).rings.size = s.rings.size := by
  simp [expire_eq, dropExpired]

theorem size_compact (s : Slots κ) (estimated allowance : Nat) :
    (s.compact estimated allowance).rings.size = max s.bound.length estimated := by
  simp [compact]

theorem Valid.size_recover (h : s.Valid allowance) {estimated : Nat}
    (hestimated : estimated ≤ s.rings.size) :
    estimated ≤ (s.recover estimated allowance).rings.size ∧
      (s.recover estimated allowance).rings.size ≤ s.rings.size := by
  have hsize := h.size_eq
  unfold Slots.recover
  split
  · rw [size_compact]
    omega
  · omega

end Slots

/-! ## The invariant -/

namespace Window

variable {κ : Type} {w w' : Window κ} {clock peak : Nat}

/-- The bookkeeping of slots in a window that never had more than `peak` keys bound at once. -/
structure Conserved (w : Window κ) (peak : Nat) : Prop where
  bound_once : (w.slots.bound.map (·.2)).Nodup
  free_once : w.slots.free.Nodup
  disjoint : (w.slots.bound.map (·.2)).Disjoint w.slots.free
  complete : ∀ i, i ∈ w.slots.bound.map (·.2) ∨ i ∈ w.slots.free ↔ i < w.occupancy.slots
  capacity : ∀ q ∈ w.slots.rings, q.capacity = w.allowance
  idle : ∀ i ∈ w.slots.free, (w.slots.ring i).isEmpty = true
  /-- The slot that the next new key is bound to takes the first deadline of the key. -/
  room : ∀ d, ∃ q, ((w.slots.takeSlot w.allowance).2.ring
    (w.slots.takeSlot w.allowance).1).push d = .ok q
  estimate_le : w.estimated ≤ w.occupancy.slots
  le_peak : w.occupancy.slots ≤ max w.estimated peak

theorem Valid.conserved (h : w.Valid) (hestimate : w.estimated ≤ w.slots.rings.size)
    (hpeak : w.slots.rings.size ≤ max w.estimated peak) : w.Conserved peak := by
  have hnodup := List.nodup_append.1 h.slots.indices_nodup
  refine ⟨hnodup.1, hnodup.2.1, ?_, ?_, ?_, ?_, ?_, hestimate, hpeak⟩
  · intro i hbound hfree
    exact hnodup.2.2 i hbound i hfree rfl
  · intro i
    rw [← List.mem_append, h.slots.indices.mem_iff, List.mem_range]
    rfl
  · intro q hq
    simp [Ring.capacity, (h.slots.rings q hq).2]
  · intro i hi
    rw [(h.slots.ring (h.slots.free_lt hi)).1.isEmpty_iff_toList]
    exact h.slots.idle i hi
  · intro d
    have htaken := h.slots.taken
    have hmem := htaken.indices.mem_iff.1 (List.mem_append_right _ List.mem_cons_self)
    have hring := htaken.rings _ (Array.getElem_mem (List.mem_range.1 hmem))
    rw [← Slots.ring_eq_getElem] at hring
    exact Slots.push_of_empty hring.1 hring.2 h.allowance_pos
      (htaken.idle _ List.mem_cons_self) d

theorem Swept.size (h : Swept clock w w') (hw : w.Valid)
    (hestimate : w.estimated ≤ w.slots.rings.size) :
    w.estimated ≤ w'.slots.rings.size ∧ w'.slots.rings.size ≤ w.slots.rings.size := by
  cases h with
  | @intro s s' hs hs' =>
      have hvalid := hs'.valid ((hs.valid hw.slots).expire (w.elapsed clock))
      have hsize : s'.rings.size = w.slots.rings.size := by
        rw [hs'.rings, Slots.size_expire, hs.rings]
      rw [← hsize] at hestimate ⊢
      exact hvalid.size_recover hestimate

variable [DecidableEq κ] {c : Command κ} {a : Answer κ}

theorem Valid.size_visit (h : w.Valid) (clock : Nat) (k : κ) :
    (w.visit clock k).1.slots.rings.size = w.slots.rings.size ∨
      (w.visit clock k).1.slots.rings.size =
        max w.slots.rings.size (w.visit clock k).1.online.length := by
  cases hslot : w.slots.slotOf? k with
  | none =>
      have hbind := h.slots.size_bind h.allowance_pos k (w.due clock)
      right
      simp [visit, hslot, online, Slots.keys, hbind]
  | some i =>
      left
      simp only [visit, hslot]
      split <;> simp

theorem size_remaining (w : Window κ) (clock : Nat) (k : κ) :
    (w.remaining clock k).1.slots.rings.size = w.slots.rings.size := by
  unfold remaining
  split <;> simp

theorem Valid.size_rollback (h : w.Valid) (k : κ) :
    (w.rollback k).slots.rings.size = w.slots.rings.size := by
  cases hslot : w.slots.slotOf? k with
  | none => simp [rollback, hslot]
  | some i =>
      obtain ⟨q, -, -, -, heq⟩ := h.rollback_of_slot hslot
      rw [heq]
      split <;> simp [Slots.release]

/-- Whatever slots a step adds, all slots are bound after it. -/
theorem Step.size (hstep : Step clock w c w' a) (h : w.Valid)
    (hestimate : w.estimated ≤ w.slots.rings.size) :
    w.estimated ≤ w'.slots.rings.size ∧
      w'.slots.rings.size ≤ max w.slots.rings.size w'.online.length := by
  cases hstep with
  | visit k =>
      have hsize := h.size_visit clock k
      omega
  | remaining k =>
      rw [size_remaining]
      omega
  | rollback k =>
      rw [h.size_rollback]
      omega
  | sweep hswept =>
      have hsize := hswept.size h hestimate
      omega
  | online _ => omega

theorem Step.becomes (hstep : Step clock w c w' a) (h : w.Valid) :
    ∃ lists, w.Becomes w' lists := by
  cases hstep with
  | visit k => exact h.visit_becomes clock k
  | remaining k => exact ⟨_, (h.remaining_pruned clock k).2⟩
  | rollback k => exact ⟨_, h.rollback_becomes k⟩
  | sweep hswept => exact ⟨_, hswept.becomes h⟩
  | online _ => exact ⟨_, h.becomes_self⟩

/-! ## Runs that count the bound keys -/

/-- A window together with the most keys that were bound at once so far. -/
structure Peaked (κ : Type) where
  window : Window κ
  peak : Nat

namespace Peaked

inductive Step (clock : Nat) (s : Peaked κ) (c : Command κ) : Peaked κ → Answer κ → Prop where
  | intro {w : Window κ} {a : Answer κ} : Window.Step clock s.window c w a →
      Step clock s c ⟨w, max s.peak w.online.length⟩ a

/-- A state that comes from `start`, with slots made only as they were needed. -/
structure Sound (start : Window κ) (s : Peaked κ) : Prop where
  terms : s.window = { start with slots := s.window.slots }
  valid : s.window.Valid
  estimate_le : s.window.estimated ≤ s.window.slots.rings.size
  le_peak : s.window.slots.rings.size ≤ max s.window.estimated s.peak

variable {start : Window κ} {s s' : Peaked κ} {history : List (Event (Command κ) (Answer κ))}

theorem Sound.step (h : s.Sound start) (hstep : Step clock s c s' a) : s'.Sound start := by
  cases hstep with
  | @intro w _ hstep =>
      obtain ⟨lists, hbecomes⟩ := hstep.becomes h.valid
      have hestimated : w.estimated = s.window.estimated := by
        simpa using congrArg Window.estimated hbecomes.terms
      have hsize := hstep.size h.valid h.estimate_le
      have hpeak := h.le_peak
      refine ⟨?_, hbecomes.valid h.valid, ?_, ?_⟩
      · simp only
        rw [hbecomes.terms, h.terms]
      · simp only [hestimated]
        omega
      · simp only [hestimated]
        omega

theorem Sound.runs (h : s.Sound start) (hruns : Runs Step s history s') : s'.Sound start := by
  induction hruns with
  | nil => exact h
  | cons hstep _ ih => exact ih (h.step hstep)

omit [DecidableEq κ] in
theorem sound_create (clock : Nat) (span : Duration) (allowance : Nat) (estimated : Option Nat) :
    (⟨create clock span allowance estimated, 0⟩ : Peaked κ).Sound
      (create clock span allowance estimated) := by
  refine ⟨rfl, valid_create clock span allowance estimated, ?_, ?_⟩ <;>
    simp [create, Slots.ofEstimate]

def run (s : Peaked κ) : List (Nat × Command κ) → Peaked κ
  | [] => s
  | (clock, command) :: rest =>
      let w := (s.window.step clock command).1
      run ⟨w, max s.peak w.online.length⟩ rest

theorem runs_history (s : Peaked κ) (commands : List (Nat × Command κ)) :
    Runs Step s (s.window.history commands) (s.run commands) := by
  induction commands generalizing s with
  | nil => exact .nil s
  | cons c rest ih => exact .cons (.intro (step_step c.1 s.window c.2)) (ih _)

end Peaked

/--
Whatever visits, rollbacks, counts and sweeps a window has seen, in whatever order and at whatever
clock readings, its slots are the bound and the free ones, each once.
-/
theorem slots_conserved {clock allowance : Nat} {span : Duration} {estimated : Option Nat}
    {s : Peaked κ} {history : List (Event (Command κ) (Answer κ))}
    (hruns : Runs Peaked.Step ⟨create clock span allowance estimated, 0⟩ history s) :
    s.window =
        { (create clock span allowance estimated : Window κ) with slots := s.window.slots } ∧
      s.window.Conserved s.peak := by
  have hsound := (Peaked.sound_create clock span allowance estimated).runs hruns
  exact ⟨hsound.terms, hsound.valid.conserved hsound.estimate_le hsound.le_peak⟩

/-- A spike of six keys, one of them taken back for a while, is compacted to the live one. -/
theorem slots_after_spike :
    let start : Peaked Nat := ⟨create 10 (.ofSecs 1) 1 (some 1), 0⟩
    let s := start.run [(10, .visit 1), (11, .visit 2), (11, .visit 3), (5, .visit 4),
      (10, .visit 5), (10, .rollback 2), (7, .visit 2), (1500000000, .visit 6),
      (1600000000, .sweep)]
    s.window.occupancy = ⟨1, 1, 0⟩ ∧ s.peak = 6 ∧ s.window.Conserved 6 := by
  intro start s
  have hs : s.window.occupancy = ⟨1, 1, 0⟩ ∧ s.peak = 6 := by decide +kernel
  refine ⟨hs.1, hs.2, ?_⟩
  rw [← hs.2]
  exact (slots_conserved (start.runs_history _)).2

end Window

end Throttle
