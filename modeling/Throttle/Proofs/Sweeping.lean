import Throttle.Proofs.Conservation

/-!
# What a sweep leaves

A sweep keeps the deadlines that are live and unbinds the keys that have none.  It leaves the slots
`Settled`: no ring starts with a deadline that has passed, and no bound ring is empty.  Settled
slots have nothing to expire, and after a recovery they are never again sparse, so a second sweep
at the same instant finds nothing to do.  This holds in whatever order the bindings are walked
through.
-/

namespace Throttle

theorem Ring.dropExpired_of_live {q : Ring} {now : Int} (h : ∀ d, q.peek = some d → now ≤ d) :
    q.dropExpired now = (0, q) := by
  rw [dropExpired]
  cases q.size with
  | zero => rfl
  | succ limit =>
      rw [popExpired]
      cases hpeek : q.peek with
      | none => rfl
      | some d =>
          have hlive := h d hpeek
          simp only [if_neg (Int.not_lt.2 hlive)]

namespace Slots

variable {κ : Type} {s s' s'' : Slots κ} {now : Int} {allowance estimated : Nat}

theorem Reordered.trans (h : s.Reordered s') (h' : s'.Reordered s'') : s.Reordered s'' :=
  ⟨h'.rings.trans h.rings, h'.bound.trans h.bound, h'.free.trans h.free⟩

/-! ## Settled slots -/

structure Settled (s : Slots κ) (now : Int) : Prop where
  live : ∀ q ∈ s.rings, ∀ d, q.peek = some d → now ≤ d
  bound : ∀ b ∈ s.bound, s.isLive b = true

theorem Settled.dropExpired_eq (h : s.Settled now) : s.dropExpired now = s := by
  have hrings : s.rings.map (fun q => (q.dropExpired now).2) = s.rings := by
    rw [Array.map_congr_left (g := id)]
    · exact Array.map_id _
    · intro q hq
      rw [Ring.dropExpired_of_live (h.live q hq)]
      rfl
  rw [dropExpired, hrings]

theorem Settled.expire_eq (h : s.Settled now) : s.expire now = s := by
  have hkept : s.bound.filter s.isLive = s.bound := List.filter_eq_self.2 h.bound
  have hdrained : (s.bound.filter fun b => !s.isLive b) = [] := by
    rw [List.filter_eq_nil_iff]
    intro b hb
    simp [h.bound b hb]
  rw [Slots.expire_eq, h.dropExpired_eq, hkept, hdrained]
  rfl

theorem Settled.reordered (h : s.Settled now) (hs : s.Reordered s') : s'.Settled now := by
  constructor
  · rw [hs.rings]
    exact h.live
  · intro b hb
    rw [isLive, hs.ring]
    exact h.bound b (hs.bound.mem_iff.1 hb)

theorem Valid.settled_expire (h : s.Valid allowance) (now : Int) : (s.expire now).Settled now := by
  rw [Slots.expire_eq]
  constructor
  · intro q' hq' d hpeek
    obtain ⟨q, hq, rfl⟩ := Array.mem_map.1 hq'
    have hring := (h.rings q hq).1
    rw [(hring.dropExpired now).peek_eq, hring.toList_dropExpired] at hpeek
    have hhead := List.head?_dropWhile_not (· < now) q.toList
    rw [hpeek] at hhead
    simpa using hhead
  · intro b hb
    exact (List.mem_filter.1 hb).2

theorem Settled.compact (h : s.Settled now) (hs : s.Valid allowance) (estimated : Nat) :
    (s.compact estimated allowance).Settled now := by
  constructor
  · intro q hq d hpeek
    rcases Array.mem_append.1 hq with hq | hq
    · obtain ⟨⟨k, i⟩, hb, rfl⟩ := List.mem_map.1 (List.mem_toArray.1 hq)
      have hlt := hs.bound_lt hb
      change (s.ring i).peek = some d at hpeek
      rw [ring_eq_getElem s hlt] at hpeek
      exact h.live _ (Array.getElem_mem hlt) d hpeek
    · obtain rfl := (Array.mem_replicate.1 hq).2
      simp [Ring.peek, Ring.isEmpty, Ring.ofCapacity] at hpeek
  · intro b hb
    obtain ⟨⟨b₀, i⟩, hzip, rfl⟩ := List.mem_map.1 hb
    obtain ⟨hlt, heq⟩ := List.getElem?_eq_some_iff.1 (List.mem_zipIdx_iff_getElem?.1 hzip)
    have hlive := h.bound _ (List.getElem_mem hlt)
    rw [isLive] at hlive ⊢
    rwa [ring_compact, dif_pos hlt]

theorem Settled.recover (h : s.Settled now) (hs : s.Valid allowance) (estimated : Nat) :
    (s.recover estimated allowance).Settled now := by
  rw [Slots.recover]
  split
  · exact h.compact hs estimated
  · exact h

/-! ## Recovery -/

theorem occupancy_compact (s : Slots κ) (estimated allowance : Nat) :
    (s.compact estimated allowance).occupancy =
      ⟨max s.bound.length estimated, s.bound.length, max s.bound.length estimated - s.bound.length⟩
    := by
  rw [occupancy, size_compact]
  simp [compact]

theorem isSparse_eq (s : Slots κ) (estimated : Nat) :
    s.isSparse estimated = true ↔
      2 * estimated ≤ s.occupancy.slots ∧ s.occupancy.bound * 2 < s.occupancy.free := by
  simp [isSparse, occupancy]

theorem recover_not_sparse (s : Slots κ) (hpos : 0 < estimated) (allowance : Nat) :
    (s.recover estimated allowance).isSparse estimated = false := by
  rw [Bool.eq_false_iff, Ne, isSparse_eq, Slots.recover]
  split
  · rw [occupancy_compact]
    simp only
    omega
  next hdense => rwa [isSparse_eq] at hdense

theorem recover_of_not_sparse (h : s.isSparse estimated = false) (allowance : Nat) :
    s.recover estimated allowance = s := by
  rw [Slots.recover, h]
  rfl

theorem Valid.occupancy_eq (h : s.Valid allowance) :
    s.occupancy.slots = s.occupancy.bound + s.occupancy.free :=
  h.size_eq

theorem Valid.slots_le (h : s.Valid allowance) (hdense : s.isSparse estimated = false) :
    s.occupancy.slots ≤ max (2 * estimated - 1) (3 * s.occupancy.bound) := by
  have hsum := h.occupancy_eq
  rw [Bool.eq_false_iff, Ne, isSparse_eq] at hdense
  omega

theorem reordered_reverse (s : Slots κ) : s.Reordered { s with bound := s.bound.reverse } :=
  ⟨rfl, List.reverse_perm _, .refl _⟩

theorem Reordered.isSparse_eq (h : s.Reordered s') :
    s'.isSparse estimated = s.isSparse estimated := by
  rw [isSparse, isSparse, h.rings, h.free, h.bound.length_eq]

end Slots

/-! ## Windows -/

namespace Window

variable {κ : Type} {w w' w'' : Window κ} {now : Nat}

theorem estimated_pos (clock : Nat) (span : Duration) (allowance : Nat) (estimated : Option Nat) :
    0 < (create clock span allowance estimated : Window κ).estimated := by
  simp only [create]
  split <;> omega

structure Rested (w : Window κ) (now : Nat) : Prop where
  settled : w.slots.Settled (w.elapsed now)
  dense : w.slots.isSparse w.estimated = false

theorem Swept.rested (h : Swept now w w') (hw : w.Valid) (hpos : 0 < w.estimated) :
    w'.Rested now := by
  cases h with
  | @intro s s' hs hs' =>
      have hvalid := hs.valid hw.slots
      have hsettled := (hvalid.settled_expire (w.elapsed now)).reordered hs'
      exact ⟨hsettled.recover (hs'.valid (hvalid.expire _)) _, s'.recover_not_sparse hpos _⟩

/-- A window at rest is left as it is, but for the order in which its bindings are kept. -/
theorem Rested.swept (h : w.Rested now) (hswept : Swept now w w') :
    w' = { w with slots := w'.slots } ∧ w.slots.Reordered w'.slots := by
  cases hswept with
  | @intro s s' hs hs' =>
      rw [(h.settled.reordered hs).expire_eq] at hs'
      have hreordered := hs.trans hs'
      have hdense : s'.isSparse w.estimated = false := hreordered.isSparse_eq.trans h.dense
      rw [Slots.recover_of_not_sparse hdense]
      exact ⟨rfl, hreordered⟩

theorem Rested.reordered (h : w.Rested now) {s : Slots κ} (hs : w.slots.Reordered s) :
    ({ w with slots := s } : Window κ).Rested now :=
  ⟨h.settled.reordered hs, hs.isSparse_eq.trans h.dense⟩

theorem Rested.sweep_eq (h : w.Rested now) : w.sweep now = w := by
  rw [sweep, Slots.sweep, h.settled.expire_eq]
  simp only [h.dense, Bool.false_eq_true, if_false]

variable [DecidableEq κ] {clock allowance : Nat} {span : Duration} {estimated : Option Nat}
  {history : List (Event (Command κ) (Answer κ))}

theorem exists_peaked_runs (hruns : Runs Step w history w') (peak : Nat) :
    ∃ peak', Runs Peaked.Step ⟨w, peak⟩ history ⟨w', peak'⟩ := by
  induction hruns generalizing peak with
  | nil w => exact ⟨peak, .nil _⟩
  | @cons w w₁ w' e rest hstep _ ih =>
      obtain ⟨peak', hrest⟩ := ih (max peak w₁.online.length)
      exact ⟨peak', .cons (.intro hstep) hrest⟩

/--
After a sweep the deadlines of each key are those that it had, without the leading ones that have
passed, and the keys with a deadline left are the bound ones.  There are as many slots as estimated
or more, but fewer than twice the estimate or at most thrice as many as are bound.  A second sweep
at the same instant moves no ring, unbinds no key and makes no slot: it changes nothing at all, in
whatever order the bindings come to it.
-/
theorem swept_exactly (hruns : Runs Step (create clock span allowance estimated) history w)
    (hswept : Swept now w w') :
    w' = { w with slots := w'.slots } ∧
      (∀ k, w'.deadlines k = (w.deadlines k).dropWhile (· < w.elapsed now)) ∧
      (∀ k, k ∈ w'.online ↔ (w.deadlines k).dropWhile (· < w.elapsed now) ≠ []) ∧
      w.estimated ≤ w'.occupancy.slots ∧
      w'.occupancy.slots ≤ max (2 * w.estimated - 1) (3 * w'.occupancy.bound) ∧
      w'.occupancy.slots = w'.occupancy.bound + w'.occupancy.free ∧
      (∀ w'', Swept now w' w'' →
        w'' = { w' with slots := w''.slots } ∧ w'.slots.Reordered w''.slots) ∧
      ∀ s, w'.slots.Reordered s → ({ w' with slots := s } : Window κ).sweep now =
        { w' with slots := s } := by
  obtain ⟨peak, hpeaked⟩ := exists_peaked_runs hruns 0
  have hsound := (Peaked.sound_create clock span allowance estimated).runs hpeaked
  have hestimated : w.estimated = (create clock span allowance estimated : Window κ).estimated := by
    simpa using congrArg Window.estimated hsound.terms
  have hpos : 0 < w.estimated := by
    rw [hestimated]
    exact estimated_pos clock span allowance estimated
  have hbecomes := hswept.becomes hsound.valid
  have hrested := hswept.rested hsound.valid hpos
  have hsame : w'.estimated = w.estimated := by
    simpa using congrArg Window.estimated hbecomes.terms
  have hdense := hrested.dense
  rw [hsame] at hdense
  refine ⟨hbecomes.terms, ?_, ?_, ?_, ?_, ?_, fun w'' => hrested.swept, ?_⟩
  · intro k
    rw [hbecomes.deadlines]
    rfl
  · exact fun k => hswept.mem_online hsound.valid
  · exact (hswept.size hsound.valid hsound.estimate_le).1
  · exact hbecomes.slots.slots_le hdense
  · exact hbecomes.slots.occupancy_eq
  · intro s hs
    exact (hrested.reordered hs).sweep_eq

/-- Of seven keys two have live deadlines when the window is swept, and five slots are given up. -/
theorem swept_after_spike :
    let start : Window Nat := create 10 (.ofSecs 1) 2 (some 2)
    let commands : List (Nat × Command Nat) := [(10, .visit 1), (11, .visit 2), (11, .visit 3),
      (900000000, .visit 3), (5, .visit 4), (10, .visit 5), (12, .visit 7), (900000000, .visit 6)]
    let w := (start.run commands).1
    let w' := w.sweep 1500000000
    let s : Slots Nat := { w'.slots with bound := w'.slots.bound.reverse }
    w.occupancy = ⟨7, 7, 0⟩ ∧ w'.occupancy = ⟨2, 2, 0⟩ ∧ w'.online = [3, 6] ∧
      w'.deadlines 3 = (w.deadlines 3).dropWhile (· < w.elapsed 1500000000) ∧
      w'.deadlines 3 = [1899999990] ∧ w'.slots.Reordered s ∧
      ({ w' with slots := s } : Window Nat).sweep 1500000000 = { w' with slots := s } := by
  intro start commands w w' s
  obtain ⟨-, hdeadlines, -, -, -, -, -, hagain⟩ :=
    swept_exactly (start.runs_history commands) (swept_sweep 1500000000 w)
  have hreversed : w'.slots.Reordered s := w'.slots.reordered_reverse
  exact ⟨by decide +kernel, by decide +kernel, by decide +kernel, hdeadlines 3, by decide +kernel,
    hreversed, hagain s hreversed⟩

end Window

end Throttle
