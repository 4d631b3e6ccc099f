import Mathlib.Data.List.Nodup
import Throttle.Ring.Lemmas
import Throttle.Slots

/-!
What each operation on slots does to the deadlines of the keys.

In a valid store the indices of the bound and the free slots are those of all rings, each once, no
key is bound twice, every ring has room for the allowance, and free slots hold no deadline. Every
operation keeps a store valid. Binding gives a key its first deadline, replacing a ring changes the
key of its slot alone, releasing forgets one key, expiry drops the leading deadlines of every key,
and compaction changes no key's deadlines.
-/

namespace Throttle.Slots

variable {κ : Type}

structure Valid (s : Slots κ) (allowance : Nat) : Prop where
  rings : ∀ q ∈ s.rings, q.Valid ∧ q.cells = allowance + 1
  indices : (s.bound.map (·.2) ++ s.free).Perm (List.range s.rings.size)
  keys : s.keys.Nodup
  idle : ∀ i ∈ s.free, (s.ring i).toList = []

/-! ## Rings -/

theorem ring_eq_getElem (s : Slots κ) {i : Nat} (h : i < s.rings.size) : s.ring i = s.rings[i] := by
  simp [ring, h]

theorem ring_setRing (s : Slots κ) (i j : Nat) (q : Ring) (h : i < s.rings.size) :
    (s.setRing i q).ring j = if j = i then q else s.ring j := by
  simp only [ring, setRing]
  split
  next heq => simp [heq, h]
  next hne => rw [Array.getElem?_setIfInBounds_ne (Ne.symm hne)]

@[simp]
theorem size_setRing (s : Slots κ) (i : Nat) (q : Ring) :
    (s.setRing i q).rings.size = s.rings.size := by
  simp [setRing]

theorem Valid.ring {s : Slots κ} {allowance i : Nat} (h : s.Valid allowance)
    (hlt : i < s.rings.size) : (s.ring i).Valid ∧ (s.ring i).cells = allowance + 1 := by
  rw [ring_eq_getElem s hlt]
  exact h.rings _ (Array.getElem_mem hlt)

theorem Valid.bound_lt {s : Slots κ} {allowance i : Nat} {k : κ} (h : s.Valid allowance)
    (hmem : (k, i) ∈ s.bound) : i < s.rings.size := by
  have : i ∈ s.bound.map (·.2) ++ s.free :=
    List.mem_append_left _ (List.mem_map.2 ⟨(k, i), hmem, rfl⟩)
  simpa using h.indices.mem_iff.1 this

theorem Valid.free_lt {s : Slots κ} {allowance i : Nat} (h : s.Valid allowance)
    (hmem : i ∈ s.free) : i < s.rings.size := by
  simpa using h.indices.mem_iff.1 (List.mem_append_right _ hmem)

theorem Valid.indices_nodup {s : Slots κ} {allowance : Nat} (h : s.Valid allowance) :
    (s.bound.map (·.2) ++ s.free).Nodup :=
  h.indices.nodup_iff.2 List.nodup_range

theorem Valid.eq_of_same_slot {s : Slots κ} {allowance i : Nat} {k k' : κ}
    (h : s.Valid allowance) (hmem : (k, i) ∈ s.bound) (hmem' : (k', i) ∈ s.bound) : k = k' := by
  have hnodup := (List.nodup_append.1 h.indices_nodup).1
  have heq := List.inj_on_of_nodup_map hnodup hmem hmem' rfl
  exact congrArg Prod.fst heq

theorem valid_ofEstimate (estimated allowance : Nat) :
    (ofEstimate estimated allowance : Slots κ).Valid allowance where
  rings q hmem := by
    obtain rfl := (Array.mem_replicate.1 hmem).2
    exact ⟨Ring.valid_ofCapacity _, Ring.cells_ofCapacity _⟩
  indices := by simp [ofEstimate]
  keys := by simp [ofEstimate, Slots.keys]
  idle i hmem := by
    have hlt : i < estimated := by simpa [ofEstimate] using hmem
    simp [ofEstimate, ring, hlt]

theorem Valid.setRing {s : Slots κ} {allowance i : Nat} {k : κ} {q : Ring} (h : s.Valid allowance)
    (hmem : (k, i) ∈ s.bound) (hq : q.Valid) (hcells : q.cells = allowance + 1) :
    (s.setRing i q).Valid allowance where
  rings r hmem' := by
    rcases Array.mem_or_eq_of_mem_setIfInBounds hmem' with hold | rfl
    · exact h.rings r hold
    · exact ⟨hq, hcells⟩
  indices := by simpa [Slots.setRing] using h.indices
  keys := h.keys
  idle j hfree := by
    rw [ring_setRing _ _ _ _ (h.bound_lt hmem), if_neg]
    · exact h.idle j hfree
    · rintro rfl
      have hbound : j ∈ s.bound.map (·.2) := List.mem_map.2 ⟨(k, j), hmem, rfl⟩
      exact (List.nodup_append.1 h.indices_nodup).2.2 j hbound j hfree rfl

/-! ## Keys -/

section Keyed

variable [DecidableEq κ]

theorem slotOf?_eq_none_iff {s : Slots κ} {k : κ} : s.slotOf? k = none ↔ k ∉ s.keys := by
  rw [slotOf?, List.lookup_eq_none_iff]
  simp only [keys, List.mem_map, not_exists, not_and]
  constructor
  · intro hnone p hmem heq
    simpa [heq] using hnone p hmem
  · intro hnone p hmem
    simpa using fun heq => hnone p hmem heq.symm

theorem Valid.slotOf?_eq_some_iff {s : Slots κ} {allowance i : Nat} {k : κ}
    (h : s.Valid allowance) : s.slotOf? k = some i ↔ (k, i) ∈ s.bound := by
  constructor
  · intro hsome
    obtain ⟨before, after, heq, -⟩ := List.lookup_eq_some_iff.1 hsome
    rw [heq]
    exact List.mem_append_right _ List.mem_cons_self
  · intro hmem
    cases hslot : s.slotOf? k with
    | none =>
        exact absurd (List.mem_map.2 ⟨(k, i), hmem, rfl⟩) (slotOf?_eq_none_iff.1 hslot)
    | some j =>
        obtain ⟨before, after, heq, -⟩ := List.lookup_eq_some_iff.1 hslot
        have hmem' : (k, j) ∈ s.bound := by
          rw [heq]
          exact List.mem_append_right _ List.mem_cons_self
        have := List.inj_on_of_nodup_map h.keys hmem hmem' rfl
        rw [(Prod.mk.inj this).2]

theorem deadlines_of_slot {s : Slots κ} {i : Nat} {k : κ} (hslot : s.slotOf? k = some i) :
    s.deadlines k = (s.ring i).toList := by
  simp [deadlines, hslot]

theorem deadlines_of_not_bound {s : Slots κ} {k : κ} (hslot : s.slotOf? k = none) :
    s.deadlines k = [] := by
  simp [deadlines, hslot]

@[simp]
theorem deadlines_ofEstimate (estimated allowance : Nat) (k : κ) :
    (ofEstimate estimated allowance : Slots κ).deadlines k = [] := by
  simp [deadlines, slotOf?, ofEstimate]

theorem slotOf?_setRing (s : Slots κ) (i : Nat) (q : Ring) (k : κ) :
    (s.setRing i q).slotOf? k = s.slotOf? k :=
  rfl

theorem Valid.deadlines_setRing {s : Slots κ} {allowance i : Nat} {k : κ} (h : s.Valid allowance)
    (hslot : s.slotOf? k = some i) (q : Ring) (k' : κ) :
    (s.setRing i q).deadlines k' = if k' = k then q.toList else s.deadlines k' := by
  have hmem := h.slotOf?_eq_some_iff.1 hslot
  split
  next heq =>
    subst heq
    rw [deadlines_of_slot (by simpa [slotOf?_setRing] using hslot),
      ring_setRing _ _ _ _ (h.bound_lt hmem), if_pos rfl]
  next hne =>
    simp only [deadlines, slotOf?_setRing]
    split
    next j hslot' =>
      rw [ring_setRing _ _ _ _ (h.bound_lt hmem), if_neg]
      rintro rfl
      exact hne (h.eq_of_same_slot (h.slotOf?_eq_some_iff.1 hslot') hmem)
    next => rfl

end Keyed

/-! ## Binding and releasing -/

/-- A slot taken is free, empty, and of the right size; the other slots stay as they were. -/
structure Taken (s : Slots κ) (allowance : Nat) (r : Nat × Slots κ) : Prop where
  bound : r.2.bound = s.bound
  rings : ∀ q ∈ r.2.rings, q.Valid ∧ q.cells = allowance + 1
  indices : (s.bound.map (·.2) ++ r.1 :: r.2.free).Perm (List.range r.2.rings.size)
  idle : ∀ i ∈ r.1 :: r.2.free, (r.2.ring i).toList = []
  others : ∀ i < s.rings.size, r.2.ring i = s.ring i

namespace Taken

variable {s : Slots κ} {allowance : Nat} {r : Nat × Slots κ}

theorem lt (h : s.Taken allowance r) : r.1 < r.2.rings.size := by
  have hmem := h.indices.mem_iff.1 (List.mem_append_right _ List.mem_cons_self)
  simpa using hmem

theorem ring (h : s.Taken allowance r) :
    (r.2.ring r.1).Valid ∧ (r.2.ring r.1).cells = allowance + 1 := by
  rw [ring_eq_getElem _ h.lt]
  exact h.rings _ (Array.getElem_mem h.lt)

theorem not_mem_free (h : s.Taken allowance r) : r.1 ∉ r.2.free := by
  have hnodup := h.indices.nodup_iff.2 List.nodup_range
  exact (List.nodup_cons.1 (List.nodup_append.1 hnodup).2.1).1

theorem ne_of_mem_bound (h : s.Taken allowance r) {k : κ} {i : Nat} (hmem : (k, i) ∈ s.bound) :
    i ≠ r.1 := by
  have hnodup := h.indices.nodup_iff.2 List.nodup_range
  have hindex : i ∈ s.bound.map (·.2) := List.mem_map.2 ⟨(k, i), hmem, rfl⟩
  exact (List.nodup_append.1 hnodup).2.2 i hindex r.1 List.mem_cons_self

end Taken

theorem Valid.taken {s : Slots κ} {allowance : Nat} (h : s.Valid allowance) :
    Taken s allowance (s.takeSlot allowance) := by
  rw [takeSlot]
  split
  next i free heq =>
    exact
      { bound := rfl
        rings := h.rings
        indices := by simpa [heq] using h.indices
        idle := by
          rw [← heq]
          exact h.idle
        others := fun _ _ => rfl }
  next heq =>
    have hold : ∀ i < s.rings.size,
        Slots.ring { s with rings := s.rings.push (.ofCapacity allowance) } i = s.ring i := by
      intro i hlt
      simp [Slots.ring, Array.getElem?_push, Nat.ne_of_lt hlt]
    exact
      { bound := rfl
        rings := by
          intro q hmem
          rcases Array.mem_push.1 hmem with hmem | rfl
          · exact h.rings q hmem
          · exact ⟨Ring.valid_ofCapacity _, Ring.cells_ofCapacity _⟩
        indices := by
          have hperm := h.indices
          simp only [heq, List.append_nil] at hperm
          simpa [heq, List.range_succ] using hperm.append_right [s.rings.size]
        idle := by simp [heq, Slots.ring]
        others := hold }

theorem push_of_empty {q : Ring} {allowance : Nat} (hvalid : q.Valid)
    (hcells : q.cells = allowance + 1) (hpos : 0 < allowance) (hempty : q.toList = []) (d : Int) :
    ∃ q', q.push d = .ok q' := by
  cases hpushed : q.push d with
  | ok q' => exact ⟨q', rfl⟩
  | error e =>
      have hfull := hvalid.isFull_iff.1 (Ring.push_eq_error_iff.1 hpushed).1
      have : q.size = 0 := by rw [← Ring.length_toList, hempty]; rfl
      simp only [Ring.capacity, hcells] at hfull
      omega

theorem bind_eq {s : Slots κ} {allowance : Nat} {k : κ} {d : Int} (h : s.Valid allowance)
    (hpos : 0 < allowance) :
    ∃ q, ((s.takeSlot allowance).2.ring (s.takeSlot allowance).1).push d = .ok q ∧
      s.bind allowance k d =
        setRing { (s.takeSlot allowance).2 with
          bound := s.bound ++ [(k, (s.takeSlot allowance).1)] } (s.takeSlot allowance).1 q := by
  have htaken := h.taken
  obtain ⟨q, hpushed⟩ :=
    push_of_empty htaken.ring.1 htaken.ring.2 hpos (htaken.idle _ List.mem_cons_self) d
  refine ⟨q, hpushed, ?_⟩
  have hbound := htaken.bound
  unfold bind
  generalize s.takeSlot allowance = slot at hpushed hbound
  obtain ⟨i, t⟩ := slot
  have hsame : t.bound = s.bound := hbound
  have hpushed' : (ring { t with bound := s.bound ++ [(k, i)] } i).push d = .ok q := hpushed
  simp only [hsame, hpushed']

theorem Valid.keys_bind {s : Slots κ} {allowance : Nat} (h : s.Valid allowance)
    (hpos : 0 < allowance) (k : κ) (d : Int) : (s.bind allowance k d).keys = s.keys ++ [k] := by
  obtain ⟨q, -, heq⟩ := bind_eq (k := k) (d := d) h hpos
  simp [heq, Slots.setRing, Slots.keys]

section Keyed

variable [DecidableEq κ]

theorem slotOf?_append {s : Slots κ} {i : Nat} {k k' : κ} (hfree : s.slotOf? k = none)
    (rings : Array Ring) (stack : List Nat) :
    slotOf? ⟨rings, s.bound ++ [(k, i)], stack⟩ k' =
      if k' = k then some i else s.slotOf? k' := by
  simp only [slotOf?] at hfree ⊢
  rw [List.lookup_append]
  split
  next heq => simp [heq, hfree]
  next hne => simp [List.lookup_cons, beq_false_of_ne hne]

theorem Valid.bind {s : Slots κ} {allowance : Nat} {k : κ} (h : s.Valid allowance)
    (hpos : 0 < allowance) (hslot : s.slotOf? k = none) (d : Int) :
    (s.bind allowance k d).Valid allowance := by
  obtain ⟨q, hpushed, heq⟩ := bind_eq (k := k) (d := d) h hpos
  have htaken := h.taken
  rw [heq]
  constructor
  · intro r hmem
    rcases Array.mem_or_eq_of_mem_setIfInBounds hmem with hold | rfl
    · exact htaken.rings r hold
    · exact ⟨htaken.ring.1.push hpushed, (Ring.cells_push hpushed).trans htaken.ring.2⟩
  · simpa [Slots.setRing] using htaken.indices
  · simp only [Slots.setRing, Slots.keys, List.map_append, List.map_cons, List.map_nil]
    refine List.nodup_append.2 ⟨h.keys, by simp, ?_⟩
    rintro a hmem b hmem' rfl
    obtain rfl := List.mem_singleton.1 hmem'
    exact slotOf?_eq_none_iff.1 hslot hmem
  · intro j hmem
    have hne : j ≠ (s.takeSlot allowance).1 := by
      rintro rfl
      exact htaken.not_mem_free hmem
    refine (congrArg Ring.toList (ring_setRing _ _ _ _ htaken.lt)).trans ?_
    rw [if_neg hne]
    exact htaken.idle j (List.mem_cons_of_mem _ hmem)

theorem Valid.deadlines_bind {s : Slots κ} {allowance : Nat} {k : κ} (h : s.Valid allowance)
    (hpos : 0 < allowance) (hslot : s.slotOf? k = none) (d : Int) (k' : κ) :
    (s.bind allowance k d).deadlines k' = if k' = k then [d] else s.deadlines k' := by
  obtain ⟨q, hpushed, heq⟩ := bind_eq (k := k) (d := d) h hpos
  have htaken := h.taken
  rw [heq]
  simp only [deadlines, slotOf?_setRing, slotOf?_append hslot]
  split
  next j hslot' =>
    split at hslot'
    next heq' =>
      obtain rfl := Option.some.inj hslot'
      refine (congrArg Ring.toList (ring_setRing _ _ _ _ htaken.lt)).trans ?_
      rw [if_pos rfl, if_pos heq', htaken.ring.1.toList_push hpushed,
        htaken.idle _ List.mem_cons_self]
      rfl
    next hne =>
      have hmem := h.slotOf?_eq_some_iff.1 hslot'
      refine (congrArg Ring.toList (ring_setRing _ _ _ _ htaken.lt)).trans ?_
      rw [if_neg (htaken.ne_of_mem_bound hmem), if_neg hne, hslot']
      exact congrArg Ring.toList (htaken.others j (h.bound_lt hmem))
  next hslot' =>
    split at hslot'
    next => cases hslot'
    next hne => rw [if_neg hne, hslot']

theorem mem_keys_release {s : Slots κ} {k k' : κ} {i : Nat} :
    k' ∈ (s.release k i).keys ↔ k' ∈ s.keys ∧ k' ≠ k := by
  simp only [Slots.keys, release, List.mem_map, List.mem_filter]
  constructor
  · rintro ⟨b, ⟨hheld, hne⟩, rfl⟩
    exact ⟨⟨b, hheld, rfl⟩, by simpa using hne⟩
  · rintro ⟨⟨b, hheld, rfl⟩, hne⟩
    exact ⟨b, ⟨hheld, by simpa using hne⟩, rfl⟩

theorem slotOf?_release (s : Slots κ) (k k' : κ) (i : Nat) :
    (s.release k i).slotOf? k' = if k' = k then none else s.slotOf? k' := by
  simp only [slotOf?, release]
  induction s.bound with
  | nil => simp
  | cons p bound ih =>
      obtain ⟨k₀, j⟩ := p
      by_cases heq : k₀ = k
      · subst heq
        rw [List.filter_cons_of_neg (by simp), ih]
        split
        next => rfl
        next hne => simp [List.lookup_cons, beq_false_of_ne hne]
      · rw [List.filter_cons_of_pos (by simpa using heq), List.lookup_cons, List.lookup_cons, ih]
        by_cases hhere : k' = k₀
        · subst hhere
          simp [heq]
        · rw [beq_false_of_ne hhere]

theorem deadlines_release (s : Slots κ) (k k' : κ) (i : Nat) :
    (s.release k i).deadlines k' = if k' = k then [] else s.deadlines k' := by
  simp only [deadlines, slotOf?_release]
  split
  next hslot =>
    split at hslot
    next => cases hslot
    next hne => simp [hne, hslot, ring, release]
  next hslot =>
    split at hslot
    next heq => simp [heq]
    next hne => simp [hne, hslot]

theorem perm_cons_filter {bound : List (κ × Nat)} {k : κ} {i : Nat}
    (hnodup : (bound.map (·.1)).Nodup) (hmem : (k, i) ∈ bound) :
    bound.Perm ((k, i) :: bound.filter (·.1 ≠ k)) := by
  induction bound with
  | nil => cases hmem
  | cons p bound ih =>
      rw [List.map_cons, List.nodup_cons] at hnodup
      rcases List.mem_cons.1 hmem with rfl | hmem
      · rw [List.filter_cons_of_neg (by simp), List.filter_eq_self.2]
        intro p hmem'
        simp only [decide_not, Bool.not_eq_eq_eq_not, Bool.not_true, decide_eq_false_iff_not]
        rintro rfl
        exact hnodup.1 (List.mem_map.2 ⟨p, hmem', rfl⟩)
      · have hne : p.1 ≠ k := by
          rintro rfl
          exact hnodup.1 (List.mem_map.2 ⟨(p.1, i), hmem, rfl⟩)
        rw [List.filter_cons_of_pos (by simpa using hne)]
        exact ((ih hnodup.2 hmem).cons p).trans (List.Perm.swap _ _ _)

theorem Valid.release {s : Slots κ} {allowance i : Nat} {k : κ} (h : s.Valid allowance)
    (hslot : s.slotOf? k = some i) (hempty : (s.ring i).toList = []) :
    (s.release k i).Valid allowance where
  rings := h.rings
  indices := by
    have hmem := h.slotOf?_eq_some_iff.1 hslot
    have hsplit := perm_cons_filter h.keys hmem
    have hperm := (hsplit.map (·.2)).append_right s.free
    refine List.Perm.trans ?_ (hperm.symm.trans h.indices)
    simp [Slots.release]
  keys := (List.filter_sublist.map _).nodup h.keys
  idle j hmem := by
    rcases List.mem_cons.1 hmem with rfl | hmem
    · exact hempty
    · exact h.idle j hmem

end Keyed

/-! ## Expiry -/

/-- Every ring without its expired deadlines. -/
def dropExpired (s : Slots κ) (now : Int) : Slots κ :=
  { s with rings := s.rings.map fun q => (q.dropExpired now).2 }

theorem ring_dropExpired (s : Slots κ) (now : Int) {i : Nat} (hlt : i < s.rings.size) :
    (s.dropExpired now).ring i = ((s.ring i).dropExpired now).2 := by
  simp [ring, dropExpired, hlt]

theorem Valid.toList_ring_dropExpired {s : Slots κ} {allowance i : Nat} (h : s.Valid allowance)
    (now : Int) (hlt : i < s.rings.size) :
    ((s.dropExpired now).ring i).toList = (s.ring i).toList.dropWhile (· < now) := by
  rw [ring_dropExpired s now hlt, (h.ring hlt).1.toList_dropExpired]

theorem Valid.dropExpired {s : Slots κ} {allowance : Nat} (h : s.Valid allowance) (now : Int) :
    (s.dropExpired now).Valid allowance where
  rings q hmem := by
    obtain ⟨r, hkept, rfl⟩ := Array.mem_map.1 hmem
    have hright := h.rings r hkept
    exact ⟨hright.1.dropExpired now, (hright.1.cells_dropExpired now).trans hright.2⟩
  indices := by simpa [Slots.dropExpired] using h.indices
  keys := h.keys
  idle i hmem := by
    rw [h.toList_ring_dropExpired now (h.free_lt hmem), h.idle i hmem]
    rfl

def isLive (s : Slots κ) (b : κ × Nat) : Bool := !(s.ring b.2).isEmpty

theorem expire_eq (s : Slots κ) (now : Int) :
    s.expire now =
      { s.dropExpired now with
        bound := s.bound.filter (s.dropExpired now).isLive
        free := ((s.bound.filter fun b => !(s.dropExpired now).isLive b).map (·.2)).reverse
          ++ s.free } := by
  simp only [expire, List.partition_eq_filter_filter, dropExpired, isLive, Bool.not_not]
  rfl

theorem Valid.expire {s : Slots κ} {allowance : Nat} (h : s.Valid allowance) (now : Int) :
    (s.expire now).Valid allowance := by
  have hdropped := h.dropExpired now
  rw [expire_eq]
  constructor
  · exact hdropped.rings
  · refine List.Perm.trans ?_ hdropped.indices
    rw [← List.append_assoc]
    refine List.Perm.append_right s.free ?_
    refine ((List.reverse_perm _).append_left _).trans ?_
    rw [← List.map_append]
    exact (List.filter_append_perm _ s.bound).map (·.2)
  · exact (List.filter_sublist.map _).nodup h.keys
  · intro i hmem
    rcases List.mem_append.1 hmem with hmem | hmem
    · obtain ⟨b, hremoved, rfl⟩ := List.mem_map.1 (List.mem_reverse.1 hmem)
      obtain ⟨hheld, hdrained⟩ := List.mem_filter.1 hremoved
      have hlt : b.2 < (s.dropExpired now).rings.size := hdropped.bound_lt (k := b.1) hheld
      exact (hdropped.ring hlt).1.isEmpty_iff_toList.1 (by simpa [isLive] using hdrained)
    · exact hdropped.idle i hmem

section Keyed

variable [DecidableEq κ]

theorem Valid.slotOf?_expire {s : Slots κ} {allowance : Nat} (h : s.Valid allowance) (now : Int)
    (k : κ) : (s.expire now).slotOf? k =
      (s.slotOf? k).filter fun i => (s.dropExpired now).isLive (k, i) := by
  have hvalid := h.expire now
  apply Option.ext
  intro i
  rw [hvalid.slotOf?_eq_some_iff, expire_eq, Option.filter_eq_some_iff, h.slotOf?_eq_some_iff]
  exact List.mem_filter

/-- Expiry drops the leading deadlines before the given instant, of every key. -/
theorem Valid.deadlines_expire {s : Slots κ} {allowance : Nat} (h : s.Valid allowance) (now : Int)
    (k : κ) : (s.expire now).deadlines k = (s.deadlines k).dropWhile (· < now) := by
  simp only [deadlines, h.slotOf?_expire now k]
  cases hslot : s.slotOf? k with
  | none => rfl
  | some i =>
      have hlt := h.bound_lt (h.slotOf?_eq_some_iff.1 hslot)
      have hview := h.toList_ring_dropExpired now hlt
      have hvalid := ((h.dropExpired now).ring (i := i) (by simpa [Slots.dropExpired] using hlt)).1
      by_cases hlive : (s.dropExpired now).isLive (k, i) = true
      · simp only [Option.filter_some, hlive, if_true]
        rw [← hview, expire_eq]
        rfl
      · simp only [Option.filter_some, hlive]
        rw [← hview]
        simp only [isLive, Bool.not_eq_true', Bool.not_eq_false] at hlive
        exact (hvalid.isEmpty_iff_toList.1 hlive).symm

theorem Valid.slotOf?_expire_eq_none_iff {s : Slots κ} {allowance : Nat} (h : s.Valid allowance)
    (now : Int) (k : κ) :
    (s.expire now).slotOf? k = none ↔ (s.deadlines k).dropWhile (· < now) = [] := by
  rw [h.slotOf?_expire now k, deadlines]
  cases hslot : s.slotOf? k with
  | none => exact ⟨fun _ => rfl, fun _ => rfl⟩
  | some i =>
      have hlt := h.bound_lt (h.slotOf?_eq_some_iff.1 hslot)
      have hvalid := ((h.dropExpired now).ring (i := i) (by simpa [Slots.dropExpired] using hlt)).1
      rw [← h.toList_ring_dropExpired now hlt, ← hvalid.isEmpty_iff_toList]
      simp [isLive]

theorem Valid.mem_keys_expire {s : Slots κ} {allowance : Nat} (h : s.Valid allowance) (now : Int)
    {k : κ} : k ∈ (s.expire now).keys ↔ (s.deadlines k).dropWhile (· < now) ≠ [] := by
  rw [Ne, ← h.slotOf?_expire_eq_none_iff, slotOf?_eq_none_iff, not_not]

end Keyed

/-! ## Compaction -/

theorem ring_compact (s : Slots κ) (estimated allowance : Nat) {i : Nat} :
    (s.compact estimated allowance).ring i =
      if hlt : i < s.bound.length then s.ring s.bound[i].2
      else if i < max s.bound.length estimated then .ofCapacity allowance else .ofCapacity 0 := by
  simp only [compact, ring]
  by_cases hlt : i < s.bound.length
  · rw [dif_pos hlt]
    rw [Array.getElem?_append, if_pos (by simpa using hlt)]
    simp [hlt]
  · rw [dif_neg hlt]
    simp only [Array.getElem?_append, List.size_toArray, List.length_map, hlt, if_false,
      Array.getElem?_replicate]
    by_cases hfits : i < max s.bound.length estimated
    · rw [if_pos hfits, if_pos (by omega)]
      rfl
    · rw [if_neg hfits, if_neg (by omega)]
      rfl

theorem keys_compact (s : Slots κ) (estimated allowance : Nat) :
    (s.compact estimated allowance).keys = s.keys := by
  simp only [Slots.compact, Slots.keys, List.map_map]
  apply List.ext_getElem <;> simp

theorem Valid.compact {s : Slots κ} {allowance : Nat} (h : s.Valid allowance) (estimated : Nat) :
    (s.compact estimated allowance).Valid allowance where
  rings q hmem := by
    rcases Array.mem_append.1 hmem with hmem | hmem
    · obtain ⟨b, hheld, rfl⟩ := List.mem_map.1 (List.mem_toArray.1 hmem)
      exact h.ring (h.bound_lt (k := b.1) hheld)
    · obtain rfl := (Array.mem_replicate.1 hmem).2
      exact ⟨Ring.valid_ofCapacity _, Ring.cells_ofCapacity _⟩
  indices := by
    have hslots : (s.compact estimated allowance).bound.map (·.2) = List.range s.bound.length := by
      simp only [Slots.compact, List.map_map]
      apply List.ext_getElem <;> simp
    rw [hslots]
    simp only [Slots.compact, Array.size_append, List.size_toArray, List.length_map,
      Array.size_replicate]
    refine ((List.reverse_perm _).append_left _).trans ?_
    have hjoined : List.range' 0 s.bound.length ++
        List.range' s.bound.length (max s.bound.length estimated - s.bound.length) =
          List.range' 0 (s.bound.length + (max s.bound.length estimated - s.bound.length)) := by
      simpa using List.range'_append_1 (s := 0) (m := s.bound.length)
        (n := max s.bound.length estimated - s.bound.length)
    rw [List.range_eq_range', List.range_eq_range', hjoined]
  keys := by
    rw [keys_compact]
    exact h.keys
  idle i hmem := by
    have hrange := List.mem_range'_1.1 (List.mem_reverse.1 hmem)
    rw [ring_compact, dif_neg (by omega)]
    split <;> exact Ring.toList_ofCapacity _

section Keyed

variable [DecidableEq κ]

theorem Valid.deadlines_compact {s : Slots κ} {allowance : Nat} (h : s.Valid allowance)
    (estimated : Nat) (k : κ) :
    (s.compact estimated allowance).deadlines k = s.deadlines k := by
  have hvalid := h.compact estimated
  simp only [deadlines]
  cases hslot : s.slotOf? k with
  | none =>
      have hnone : (s.compact estimated allowance).slotOf? k = none := by
        rw [slotOf?_eq_none_iff] at hslot ⊢
        rwa [keys_compact]
      rw [hnone]
  | some i =>
      obtain ⟨n, hlt, heq⟩ := List.getElem_of_mem (h.slotOf?_eq_some_iff.1 hslot)
      have hmem : (k, n) ∈ (s.compact estimated allowance).bound := by
        simp only [Slots.compact, List.mem_map]
        refine ⟨((k, i), n), ?_, rfl⟩
        rw [List.mem_zipIdx_iff_getElem?, List.getElem?_eq_getElem hlt, heq]
      rw [hvalid.slotOf?_eq_some_iff.2 hmem]
      simp only [ring_compact, hlt, dif_pos, heq]

end Keyed

/-! ## Sweeps -/

theorem Valid.sweep {s : Slots κ} {allowance : Nat} (h : s.Valid allowance) (estimated : Nat)
    (now : Int) : (s.sweep estimated allowance now).Valid allowance := by
  rw [Slots.sweep]
  split
  · exact (h.expire now).compact estimated
  · exact h.expire now

end Throttle.Slots
