import Throttle.Proofs.RuleEffects

/-!
# Keys do not interfere

All keys share the slots of a window: other keys decide which slot a key gets, when slots are made
anew, and when they are moved and renumbered.  Nothing of this shows.  Two windows agree on a key
when they have the same terms, hold the same deadlines for it, and bind it alike.  A command on
another key keeps the agreement on its own side, and a command that concerns the key keeps it when
both sides take it, with the same answer.
-/

namespace Throttle

namespace Window

variable {κ : Type} [DecidableEq κ] {w w' v v' : Window κ} {k k' : κ} {clock : Nat}

structure AgreesOn (k : κ) (w v : Window κ) : Prop where
  valid : w.Valid
  valid' : v.Valid
  span : v.span = w.span
  allowance : v.allowance = w.allowance
  anchor : v.anchor = w.anchor
  deadlines : v.deadlines k = w.deadlines k
  bound : k ∈ v.online ↔ k ∈ w.online

namespace AgreesOn

theorem refl (hw : w.Valid) : w.AgreesOn k w := ⟨hw, hw, rfl, rfl, rfl, rfl, Iff.rfl⟩

theorem symm (h : w.AgreesOn k v) : v.AgreesOn k w :=
  ⟨h.valid', h.valid, h.span.symm, h.allowance.symm, h.anchor.symm, h.deadlines.symm, h.bound.symm⟩

theorem trans {u : Window κ} (h : w.AgreesOn k v) (h' : v.AgreesOn k u) : w.AgreesOn k u :=
  ⟨h.valid, h'.valid', h'.span.trans h.span, h'.allowance.trans h.allowance,
    h'.anchor.trans h.anchor, h'.deadlines.trans h.deadlines, h'.bound.trans h.bound⟩

theorem elapsed (h : w.AgreesOn k v) : v.elapsed = w.elapsed := by
  funext clock
  unfold Window.elapsed
  rw [h.anchor]

theorem due (h : w.AgreesOn k v) : v.due = w.due := by
  funext clock
  rw [Window.due, Window.due, h.elapsed, h.span]

theorem live (h : w.AgreesOn k v) : v.live clock k = w.live clock k := by
  rw [Window.live, Window.live, h.elapsed, h.deadlines]

theorem hasRoom (h : w.AgreesOn k v) : v.HasRoom clock k ↔ w.HasRoom clock k := by
  rw [HasRoom, HasRoom, h.live, h.allowance]

theorem hint (h : w.AgreesOn k v) : v.hint clock k = w.hint clock k := by
  rw [Window.hint, Window.hint, h.live, h.elapsed]

theorem becomes (h : w.AgreesOn k v) {lists lists' : κ → List Int} (hw : w.Becomes w' lists)
    (hv : v.Becomes v' lists') (hlists : lists' k = lists k)
    (hbound : k ∈ v'.online ↔ k ∈ w'.online) : w'.AgreesOn k v' where
  valid := hw.valid h.valid
  valid' := hv.valid h.valid'
  span := by rw [hv.span, hw.span, h.span]
  allowance := by rw [hv.allowance, hw.allowance, h.allowance]
  anchor := by rw [hv.anchor, hw.anchor, h.anchor]
  deadlines := by rw [hv.deadlines, hw.deadlines, hlists]
  bound := hbound

end AgreesOn

/-! ## Operations on another key -/

theorem Becomes.agreesOn {lists : κ → List Int} (hbecomes : w.Becomes w' lists) (hw : w.Valid)
    (hlists : lists k = w.deadlines k) (hbound : k ∈ w'.online ↔ k ∈ w.online) :
    w.AgreesOn k w' :=
  (AgreesOn.refl hw).becomes hw.becomes_self hbecomes hlists hbound

theorem agreesOn_visit (clock : Nat) (hw : w.Valid) (hne : k ≠ k') :
    w.AgreesOn k (w.visit clock k').1 := by
  have hbound : k ∈ (w.visit clock k').1.online ↔ k ∈ w.online := by
    rw [hw.mem_online_visit, or_iff_left hne]
  by_cases hroom : w.HasRoom clock k'
  · exact Becomes.agreesOn (hw.visit_of_room hroom).2 hw (Function.update_of_ne hne _ _) hbound
  · exact Becomes.agreesOn (hw.visit_of_full hroom).2 hw (Function.update_of_ne hne _ _) hbound

theorem agreesOn_rollback (hw : w.Valid) (hne : k ≠ k') : w.AgreesOn k (w.rollback k') := by
  apply (hw.rollback_becomes k').agreesOn hw (Function.update_of_ne hne _ _)
  rw [hw.mem_online_rollback]
  exact and_iff_left fun heq => absurd heq hne

theorem agreesOn_remaining (hw : w.Valid) (hne : k ≠ k') :
    w.AgreesOn k (w.remaining clock k').1 := by
  apply Becomes.agreesOn (hw.remaining_pruned clock k').2 hw (Function.update_of_ne hne _ _)
  rw [online_remaining]

/-! ## The same operation on both sides -/

namespace AgreesOn

theorem visit (h : w.AgreesOn k v) (clock : Nat) :
    (v.visit clock k).2 = (w.visit clock k).2 ∧
      (w.visit clock k).1.AgreesOn k (v.visit clock k).1 := by
  have hbound : k ∈ (v.visit clock k).1.online ↔ k ∈ (w.visit clock k).1.online := by
    simp [h.valid.mem_online_visit, h.valid'.mem_online_visit]
  by_cases hroom : w.HasRoom clock k
  · obtain ⟨hw, hrecorded⟩ := h.valid.visit_of_room hroom
    obtain ⟨hv, hrecorded'⟩ := h.valid'.visit_of_room (h.hasRoom.2 hroom)
    refine ⟨by rw [hw, hv], h.becomes hrecorded hrecorded' ?_ hbound⟩
    rw [Function.update_self, Function.update_self, h.live, h.due]
  · obtain ⟨hw, hpruned⟩ := h.valid.visit_of_full hroom
    obtain ⟨hv, hpruned'⟩ := h.valid'.visit_of_full (mt h.hasRoom.1 hroom)
    refine ⟨by rw [hw, hv, h.hint], h.becomes hpruned hpruned' ?_ hbound⟩
    rw [Function.update_self, Function.update_self, h.live]

theorem rollback (h : w.AgreesOn k v) : (w.rollback k).AgreesOn k (v.rollback k) := by
  apply h.becomes (h.valid.rollback_becomes k) (h.valid'.rollback_becomes k)
  · rw [Function.update_self, Function.update_self, h.deadlines]
  · rw [h.valid.mem_online_rollback, h.valid'.mem_online_rollback, h.bound, h.deadlines]

theorem remaining (h : w.AgreesOn k v) (clock : Nat) :
    (v.remaining clock k).2 = (w.remaining clock k).2 ∧
      (w.remaining clock k).1.AgreesOn k (v.remaining clock k).1 := by
  obtain ⟨hw, hpruned⟩ := h.valid.remaining_pruned clock k
  obtain ⟨hv, hpruned'⟩ := h.valid'.remaining_pruned clock k
  refine ⟨by rw [hw, hv, h.live, h.allowance], h.becomes hpruned hpruned' ?_ ?_⟩
  · rw [Function.update_self, Function.update_self, h.live]
  · rw [online_remaining, online_remaining, h.bound]

theorem swept (h : w.AgreesOn k v) (hw : Swept clock w w') (hv : Swept clock v v') :
    w'.AgreesOn k v' := by
  apply h.becomes (hw.becomes h.valid) (hv.becomes h.valid') h.live
  rw [hw.mem_online h.valid, hv.mem_online h.valid', h.live]

end AgreesOn

end Window

/-! ## Rules -/

namespace Rule

variable {κ : Type} [DecidableEq κ] {k k' : κ} {clock : Nat} {mode : RuleMode}
  {r r' q q' : Rule κ} {ws vs : List (Window κ)}

structure AgreesOn (k : κ) (r q : Rule κ) : Prop where
  mode : q.mode = r.mode
  windows : List.Forall₂ (Window.AgreesOn k) r.windows q.windows

theorem AgreesOn.symm (h : r.AgreesOn k q) : q.AgreesOn k r :=
  ⟨h.mode.symm, (h.windows.imp fun _ _ hw => hw.symm).flip⟩

theorem AgreesOn.trans (h : r.AgreesOn k q) (h' : q.AgreesOn k q') : r.AgreesOn k q' :=
  ⟨h'.mode.trans h.mode, forall₂_comp (fun _ _ _ hw hv => hw.trans hv) h.windows h'.windows⟩

theorem AgreesOn.valid (h : r.AgreesOn k q) : ∀ w ∈ r.windows, w.Valid := by
  intro w hw
  obtain ⟨v, -, hv⟩ := exists_of_forall₂ h.windows.flip hw
  exact hv.valid

theorem agreesOn_visitWindows (hne : k ≠ k') (hvalid : ∀ w ∈ ws, w.Valid) :
    List.Forall₂ (Window.AgreesOn k) ws (visitWindows mode clock k' ws).1 := by
  induction ws with
  | nil => exact .nil
  | cons w ws ih =>
      rw [List.forall_mem_cons] at hvalid
      obtain ⟨hw, hws⟩ := hvalid
      have hvisit := Window.agreesOn_visit clock hw hne
      have hback := hvisit.trans (Window.agreesOn_rollback hvisit.valid' hne)
      have hrest := ih hws
      have hsame : List.Forall₂ (Window.AgreesOn k) ws ws :=
        List.forall₂_same.2 fun w hw => .refl (hws w hw)
      rw [visitWindows]
      generalize w.visit clock k' = visited at hvisit hback
      obtain ⟨w', v⟩ := visited
      cases v with
      | refused d => exact .cons hvisit hsame
      | admitted =>
          generalize visitWindows mode clock k' ws = asked at hrest
          obtain ⟨ws', v⟩ := asked
          cases v with
          | admitted => exact .cons hvisit hrest
          | refused d =>
              cases mode with
              | independent => exact .cons hvisit hrest
              | transactional => exact .cons hback hrest

theorem visitWindows_agreesOn (mode : RuleMode) (clock : Nat)
    (h : List.Forall₂ (Window.AgreesOn k) ws vs) :
    (visitWindows mode clock k vs).2 = (visitWindows mode clock k ws).2 ∧
      List.Forall₂ (Window.AgreesOn k) (visitWindows mode clock k ws).1
        (visitWindows mode clock k vs).1 := by
  induction h with
  | nil => exact ⟨rfl, .nil⟩
  | @cons w v ws vs hhead htail ih =>
      obtain ⟨hverdict, hvisit⟩ := hhead.visit clock
      have hback := hvisit.rollback
      obtain ⟨hrest, hwindows⟩ := ih
      rw [visitWindows, visitWindows]
      generalize w.visit clock k = visited at hverdict hvisit hback
      generalize v.visit clock k = visited' at hverdict hvisit hback
      obtain ⟨w', a⟩ := visited
      obtain ⟨v', a'⟩ := visited'
      simp only at hverdict
      subst hverdict
      cases a' with
      | refused d => exact ⟨rfl, .cons hvisit htail⟩
      | admitted =>
          generalize visitWindows mode clock k ws = asked at hrest hwindows
          generalize visitWindows mode clock k vs = asked' at hrest hwindows
          obtain ⟨ws', b⟩ := asked
          obtain ⟨vs', b'⟩ := asked'
          simp only at hrest
          subst hrest
          cases b' with
          | admitted => exact ⟨rfl, .cons hvisit hwindows⟩
          | refused d =>
              cases mode with
              | independent => exact ⟨rfl, .cons hvisit hwindows⟩
              | transactional => exact ⟨rfl, .cons hback hwindows⟩

/-! ## Steps -/

/-- The commands on one key, and those on no key in particular. -/
def Command.concerns (k : κ) : Command κ → Bool
  | .visit k' => k' = k
  | .remaining k' => k' = k
  | _ => true

variable {c : Command κ} {a a' : Answer}

theorem Step.agreesOn (hstep : Step clock r c r' a) (hc : c.concerns k = false)
    (hvalid : ∀ w ∈ r.windows, w.Valid) : r.AgreesOn k r' := by
  cases hstep with
  | visit k' =>
      have hne : k ≠ k' := by
        rintro rfl
        simp [Command.concerns] at hc
      exact ⟨rfl, agreesOn_visitWindows hne hvalid⟩
  | remaining k' =>
      have hne : k ≠ k' := by
        rintro rfl
        simp [Command.concerns] at hc
      refine ⟨rfl, ?_⟩
      simp only [Rule.remaining, List.map_map, List.forall₂_map_right_iff]
      exact List.forall₂_same.2 fun w hw => Window.agreesOn_remaining (hvalid w hw) hne
  | _ => simp [Command.concerns] at hc

theorem Step.sweepWindow_cases {i : Nat} (hstep : Step clock r (.sweepWindow i) r' a) :
    a = .done ∧ ((r.windows.length ≤ i ∧ r' = r) ∨
      ∃ before w w' after, r.windows = before ++ w :: after ∧ before.length = i ∧
        Window.Swept clock w w' ∧ r' = { r with windows := before ++ w' :: after }) := by
  generalize hc : Command.sweepWindow i = c at hstep
  cases hstep with
  | sweepWindow hsplit hswept =>
      cases hc
      exact ⟨rfl, .inr ⟨_, _, _, _, hsplit, rfl, hswept, rfl⟩⟩
  | sweepNone hlength =>
      cases hc
      exact ⟨rfl, .inl ⟨hlength, rfl⟩⟩
  | _ => contradiction

theorem AgreesOn.sweepWindow (h : r.AgreesOn k q) {i : Nat}
    (hstep : Step clock r (.sweepWindow i) r' a) (hstep' : Step clock q (.sweepWindow i) q' a') :
    a = a' ∧ r'.AgreesOn k q' := by
  obtain ⟨rfl, hr⟩ := hstep.sweepWindow_cases
  obtain ⟨rfl, hq⟩ := hstep'.sweepWindow_cases
  refine ⟨rfl, ?_⟩
  have hlength := h.windows.length_eq
  rcases hr with ⟨hnone, rfl⟩ | ⟨before, w, w', after, hsplit, rfl, hw, rfl⟩ <;>
    rcases hq with ⟨hnone', rfl⟩ | ⟨before', v, v', after', hsplit', hbefore, hv, rfl⟩
  · exact h
  · rw [hsplit', List.length_append, List.length_cons] at hlength
    omega
  · rw [hsplit, List.length_append, List.length_cons] at hlength
    omega
  · have hwindows := h.windows
    rw [hsplit, hsplit'] at hwindows
    have hfront := List.forall₂_take_append _ _ _ hwindows
    have hback := List.forall₂_drop_append _ _ _ hwindows
    rw [hbefore, List.take_left] at hfront
    rw [hbefore, List.drop_left] at hback
    cases hback with
    | cons hhead htail => exact ⟨h.mode, List.rel_append hfront (.cons (hhead.swept hw hv) htail)⟩

theorem AgreesOn.step (h : r.AgreesOn k q) (hc : c.concerns k = true)
    (hstep : Step clock r c r' a) (hstep' : Step clock q c q' a') : a = a' ∧ r'.AgreesOn k q' := by
  cases c with
  | visit k' =>
      obtain rfl : k' = k := by simpa [Command.concerns] using hc
      cases hstep
      cases hstep'
      obtain ⟨hverdict, hwindows⟩ :=
        visitWindows_agreesOn r.mode clock h.windows
      simp only [Rule.visit, h.mode]
      exact ⟨congrArg _ hverdict.symm, rfl, hwindows⟩
  | remaining k' =>
      obtain rfl : k' = k := by simpa [Command.concerns] using hc
      cases hstep
      cases hstep'
      have hremaining := h.windows.imp fun _ _ hw => hw.remaining clock
      constructor
      · simp only [Rule.remaining, List.map_map]
        rw [Answer.counts.injEq, ← List.forall₂_eq_eq_eq, List.forall₂_map_left_iff,
          List.forall₂_map_right_iff]
        exact hremaining.imp fun _ _ hw => hw.1.symm
      · refine ⟨h.mode, ?_⟩
        simp only [Rule.remaining, List.map_map, List.forall₂_map_left_iff,
          List.forall₂_map_right_iff]
        exact hremaining.imp fun _ _ hw => hw.2
  | sweep =>
      cases hstep with
      | sweep hswept =>
        cases hstep' with
        | sweep hswept' =>
          refine ⟨rfl, h.mode, ?_⟩
          have hleft :
              List.Forall₂ (fun w' v => ∃ w, Window.Swept clock w w' ∧ w.AgreesOn k v) _ _ :=
            forall₂_comp (fun _ _ _ hw hv => ⟨_, hw, hv⟩) hswept.flip h.windows
          refine forall₂_comp ?_ hleft hswept'
          rintro w' v v' ⟨w, hw, hwv⟩ hv
          exact hwv.swept hw hv
  | sweepWindow i => exact h.sweepWindow hstep hstep'
  | addWindow span allowance estimated =>
      cases hstep
      cases hstep'
      exact ⟨rfl, h.mode, List.rel_append h.windows
        (.cons (.refl (Window.valid_create clock span allowance estimated)) .nil)⟩
  | setMode mode =>
      cases hstep
      cases hstep'
      exact ⟨rfl, rfl, h.windows⟩

/-! ## Whole histories -/

/--
Two histories with the same commands on a key and the same sweeps, new windows and changes of mode,
whatever else they do with other keys in between, answer all of these alike, and in the end each
window binds the key in both or in neither.
-/
theorem answers_of_key_eq {history history' : List (Event (Command κ) Answer)}
    (hruns : Runs Step ⟨[], mode⟩ history r) (hruns' : Runs Step ⟨[], mode⟩ history' q)
    (hcalls : (history.filter fun e => e.command.concerns k).map Event.call =
      (history'.filter fun e => e.command.concerns k).map Event.call) :
    (history.filter fun e => e.command.concerns k) =
        (history'.filter fun e => e.command.concerns k) ∧
      r.windows.map (fun w => decide (k ∈ w.online)) =
        q.windows.map (fun w => decide (k ∈ w.online)) := by
  have hstart : (⟨[], mode⟩ : Rule κ).AgreesOn k ⟨[], mode⟩ := ⟨rfl, .nil⟩
  obtain ⟨hsame, hagrees⟩ := Runs.seen_eq (Command.concerns k)
    (fun _ _ _ _ _ _ h hc hstep => (hstep.agreesOn hc h.valid).symm.trans h)
    (fun _ _ _ _ _ _ h hc hstep => h.trans (hstep.agreesOn hc h.symm.valid))
    (fun _ _ _ _ _ _ _ _ h hc hstep hstep' => h.step hc hstep hstep') hruns hruns' hstart hcalls
  refine ⟨hsame, ?_⟩
  rw [← List.forall₂_eq_eq_eq, List.forall₂_map_left_iff, List.forall₂_map_right_iff]
  exact hagrees.windows.imp fun _ _ hw => decide_eq_decide.2 hw.bound.symm

/-- Three other keys take slots of their own, and the sweep moves the slot of key 7. -/
theorem answers_amid_three_keys :
    let quiet : List (Nat × Command Nat) := [(0, .addWindow (.ofSecs 1) 2 (some 1)),
      (5, .visit 7), (3, .visit 7), (1000000004, .sweep), (1000000004, .remaining 7)]
    let busy : List (Nat × Command Nat) := [(0, .addWindow (.ofSecs 1) 2 (some 1)),
      (0, .visit 8), (0, .visit 9), (5, .visit 7), (1, .visit 6), (3, .visit 7), (4, .remaining 8),
      (1000000004, .sweep), (1000000004, .remaining 7)]
    let history := (⟨[], .independent⟩ : Rule Nat).history quiet
    let history' := (⟨[], .independent⟩ : Rule Nat).history busy
    history.map (·.answer) =
        [.done, .verdict .admitted, .verdict .admitted, .done, .counts [0]] ∧
      history.filter (fun e => e.command.concerns 7) =
        history'.filter (fun e => e.command.concerns 7) := by
  intro quiet busy history history'
  exact ⟨by decide +kernel, (answers_of_key_eq (runs_history _ quiet) (runs_history _ busy)
    (by decide +kernel)).1⟩

end Rule

end Throttle
