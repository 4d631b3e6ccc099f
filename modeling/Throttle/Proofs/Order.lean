import Mathlib.Data.List.Forall2
import Throttle.Proofs.Effects
import Throttle.Proofs.History
import Throttle.Rule

/-!
# Steps that leave the order of the bindings open

Nothing promises in which order the keys bound to slots are walked through.  The steps of a window
and of a rule are restated here as relations in which a sweep and a listing may take the bindings
in any order, and a sweep may even take another order when it compacts.  The functions that run
take the order in which the keys were bound, which is one of these.
-/

namespace Throttle

/-! ## Slots with their bindings in another order -/

namespace Slots

variable {κ : Type}

structure Reordered (s s' : Slots κ) : Prop where
  rings : s'.rings = s.rings
  bound : s'.bound.Perm s.bound
  free : s'.free = s.free

theorem Reordered.refl (s : Slots κ) : s.Reordered s := ⟨rfl, List.Perm.refl _, rfl⟩

theorem Reordered.ring {s s' : Slots κ} (h : s.Reordered s') (i : Nat) : s'.ring i = s.ring i := by
  simp [Slots.ring, h.rings]

theorem Reordered.mem_keys {s s' : Slots κ} (h : s.Reordered s') {k : κ} :
    k ∈ s'.keys ↔ k ∈ s.keys :=
  (h.bound.map _).mem_iff

theorem Reordered.valid {s s' : Slots κ} (h : s.Reordered s') {allowance : Nat}
    (hs : s.Valid allowance) : s'.Valid allowance := by
  constructor
  · rw [h.rings]
    exact hs.rings
  · rw [h.rings, h.free]
    exact ((h.bound.map _).append_right _).trans hs.indices
  · exact (h.bound.map _).nodup_iff.2 hs.keys
  · intro i hi
    rw [h.ring]
    exact hs.idle i (h.free ▸ hi)

variable [DecidableEq κ]

theorem Reordered.slotOf? {s s' : Slots κ} (h : s.Reordered s') {allowance : Nat}
    (hs : s.Valid allowance) (k : κ) : s'.slotOf? k = s.slotOf? k := by
  apply Option.ext
  intro i
  rw [(h.valid hs).slotOf?_eq_some_iff, hs.slotOf?_eq_some_iff]
  exact h.bound.mem_iff

theorem Reordered.deadlines {s s' : Slots κ} (h : s.Reordered s') {allowance : Nat}
    (hs : s.Valid allowance) (k : κ) : s'.deadlines k = s.deadlines k := by
  simp only [Slots.deadlines, h.slotOf? hs, h.ring]

/-- The second half of a sweep. -/
def recover (s : Slots κ) (estimated allowance : Nat) : Slots κ :=
  if s.isSparse estimated then s.compact estimated allowance else s

omit [DecidableEq κ] in
theorem Valid.recover {s : Slots κ} {allowance : Nat} (h : s.Valid allowance) (estimated : Nat) :
    (s.recover estimated allowance).Valid allowance := by
  rw [Slots.recover]
  split
  · exact h.compact estimated
  · exact h

theorem Valid.deadlines_recover {s : Slots κ} {allowance : Nat} (h : s.Valid allowance)
    (estimated : Nat) (k : κ) :
    (s.recover estimated allowance).deadlines k = s.deadlines k := by
  rw [Slots.recover]
  split
  · exact h.deadlines_compact estimated k
  · rfl

end Slots

/-! ## Windows -/

namespace Window

variable {κ : Type} [DecidableEq κ]

/-- A sweep that walks through the bindings in some order, and compacts them in some order. -/
inductive Swept (clock : Nat) (w : Window κ) : Window κ → Prop where
  | intro {s s' : Slots κ} : w.slots.Reordered s →
      (s.expire (w.elapsed clock)).Reordered s' →
      Swept clock w { w with slots := s'.recover w.estimated w.allowance }

inductive Step (clock : Nat) (w : Window κ) : Command κ → Window κ → Answer κ → Prop where
  | visit (k : κ) : Step clock w (.visit k) (w.visit clock k).1 (.verdict (w.visit clock k).2)
  | remaining (k : κ) :
      Step clock w (.remaining k) (w.remaining clock k).1 (.count (w.remaining clock k).2)
  | rollback (k : κ) : Step clock w (.rollback k) (w.rollback k) .done
  | sweep {w' : Window κ} : Swept clock w w' → Step clock w .sweep w' .done
  | online {ks : List κ} : ks.Perm w.online → Step clock w .online w (.keys ks)

omit [DecidableEq κ] in
theorem swept_sweep (clock : Nat) (w : Window κ) : Swept clock w (w.sweep clock) :=
  .intro (.refl _) (.refl _)

theorem step_step (clock : Nat) (w : Window κ) (c : Command κ) :
    Step clock w c (w.step clock c).1 (w.step clock c).2 := by
  cases c with
  | visit k => exact .visit k
  | remaining k => exact .remaining k
  | rollback k => exact .rollback k
  | sweep => exact .sweep (swept_sweep clock w)
  | online => exact .online (List.Perm.refl _)

/-- Commands with the answers that the window gives when it runs them. -/
def history (w : Window κ) (commands : List (Nat × Command κ)) :
    List (Event (Command κ) (Answer κ)) :=
  List.zipWith (fun c a => ⟨c.1, c.2, a⟩) commands (w.run commands).2

theorem runs_history (w : Window κ) (commands : List (Nat × Command κ)) :
    Runs Step w (w.history commands) (w.run commands).1 := by
  induction commands generalizing w with
  | nil => exact .nil w
  | cons c rest ih => exact .cons (step_step c.1 w c.2) (ih _)

theorem Swept.becomes {clock : Nat} {w w' : Window κ} (h : Swept clock w w') (hw : w.Valid) :
    w.Becomes w' (w.live clock) := by
  cases h with
  | @intro s s' hs hs' =>
      have hvalid := hs.valid hw.slots
      have hexpired := hvalid.expire (w.elapsed clock)
      refine ⟨rfl, (hs'.valid hexpired).recover _, ?_⟩
      funext k
      refine ((hs'.valid hexpired).deadlines_recover _ k).trans ?_
      rw [hs'.deadlines hexpired, hvalid.deadlines_expire, hs.deadlines hw.slots]
      rfl

/-- A sweep leaves bound exactly the keys with a live deadline. -/
theorem Swept.mem_online {clock : Nat} {w w' : Window κ} (h : Swept clock w w') (hw : w.Valid)
    {k : κ} : k ∈ w'.online ↔ w.live clock k ≠ [] := by
  cases h with
  | @intro s s' hs hs' =>
      have hkeys : (s'.recover w.estimated w.allowance).keys = s'.keys := by
        unfold Slots.recover
        split
        · exact s'.keys_compact _ _
        · rfl
      change k ∈ (s'.recover w.estimated w.allowance).keys ↔ _
      rw [hkeys, hs'.mem_keys, (hs.valid hw.slots).mem_keys_expire, hs.deadlines hw.slots]
      rfl

end Window

/-! ## Rules -/

namespace Rule

variable {κ : Type} [DecidableEq κ]

inductive Step (clock : Nat) (r : Rule κ) : Command κ → Rule κ → Answer → Prop where
  | visit (k : κ) : Step clock r (.visit k) (r.visit clock k).1 (.verdict (r.visit clock k).2)
  | remaining (k : κ) :
      Step clock r (.remaining k) (r.remaining clock k).1 (.counts (r.remaining clock k).2)
  | sweep {ws : List (Window κ)} : List.Forall₂ (Window.Swept clock) r.windows ws →
      Step clock r .sweep { r with windows := ws } .done
  | sweepWindow {before after : List (Window κ)} {w w' : Window κ} :
      r.windows = before ++ w :: after → Window.Swept clock w w' →
      Step clock r (.sweepWindow before.length) { r with windows := before ++ w' :: after } .done
  | sweepNone {i : Nat} : r.windows.length ≤ i → Step clock r (.sweepWindow i) r .done
  | addWindow (span : Duration) (allowance : Nat) (estimated : Option Nat) :
      Step clock r (.addWindow span allowance estimated)
        (r.addWindow clock span allowance estimated) .done
  | setMode (mode : RuleMode) : Step clock r (.setMode mode) { r with mode } .done

theorem step_sweepWindow (clock : Nat) (r : Rule κ) (i : Nat) :
    Step clock r (.sweepWindow i) (r.sweepWindow clock i) .done := by
  by_cases hi : i < r.windows.length
  · have hsplit : r.windows = r.windows.take i ++ r.windows[i] :: r.windows.drop (i + 1) := by
      rw [List.getElem_cons_drop, List.take_append_drop]
    have hlength : (r.windows.take i).length = i := by
      rw [List.length_take]
      omega
    have hstep : Step clock r (.sweepWindow (r.windows.take i).length) _ .done :=
      .sweepWindow hsplit (Window.swept_sweep clock r.windows[i])
    rw [hlength] at hstep
    rw [sweepWindow, List.modify_eq_take_cons_drop hi]
    exact hstep
  · have hnone : r.sweepWindow clock i = r := by
      rw [sweepWindow, List.modify_eq_self (by omega)]
    rw [hnone]
    exact .sweepNone (by omega)

theorem step_step (clock : Nat) (r : Rule κ) (c : Command κ) :
    Step clock r c (r.step clock c).1 (r.step clock c).2 := by
  cases c with
  | visit k => exact .visit k
  | remaining k => exact .remaining k
  | sweep =>
      apply Step.sweep
      rw [List.forall₂_map_right_iff]
      exact List.forall₂_same.2 fun w _ => Window.swept_sweep clock w
  | sweepWindow i => exact step_sweepWindow clock r i
  | addWindow span allowance estimated => exact .addWindow span allowance estimated
  | setMode mode => exact .setMode mode

/-- Commands with the answers that the rule gives when it runs them. -/
def history (r : Rule κ) (commands : List (Nat × Command κ)) : List (Event (Command κ) Answer) :=
  List.zipWith (fun c a => ⟨c.1, c.2, a⟩) commands (r.run commands).2

theorem calls_history (r : Rule κ) (commands : List (Nat × Command κ)) :
    (r.history commands).map Event.call = commands := by
  induction commands generalizing r with
  | nil => rfl
  | cons c rest ih => exact congrArg (List.cons c) (ih _)

theorem runs_history (r : Rule κ) (commands : List (Nat × Command κ)) :
    Runs Step r (r.history commands) (r.run commands).1 := by
  induction commands generalizing r with
  | nil => exact .nil r
  | cons c rest ih => exact .cons (step_step c.1 r c.2) (ih _)

end Rule

end Throttle
