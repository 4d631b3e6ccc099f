import Throttle.Proofs.Order
import Throttle.Proofs.Tracking

/-!
# What each command of a rule does to its windows

A command leaves out deadlines that have passed, records at most one visit in a window, and adds at
most one window at the end.  A visit asks the windows in order: those before the first one that is
full record it, and in transactional mode take it back, which leaves the live deadlines of the key.
`Orderly` is what a history needs so that no deadline overflows and each list stays sorted.
-/

namespace Throttle

/-! ## Lists side by side -/

section Forall

variable {α β γ : Type} {P : α → β → Prop} {R : β → γ → Prop} {Q : α → γ → Prop}

theorem exists_of_forall₂ {l : List α} {l' : List β} (h : List.Forall₂ P l l') {b : β}
    (hb : b ∈ l') : ∃ a ∈ l, P a b := by
  induction h with
  | nil => simp at hb
  | cons hhead _ ih =>
      rcases List.mem_cons.1 hb with rfl | hb
      · exact ⟨_, List.mem_cons_self, hhead⟩
      · obtain ⟨a, ha, hab⟩ := ih hb
        exact ⟨a, List.mem_cons_of_mem _ ha, hab⟩

theorem forall₂_comp (hcomp : ∀ a b c, P a b → R b c → Q a c) {l : List α} {l' : List β}
    {l'' : List γ} (h : List.Forall₂ P l l') (h' : List.Forall₂ R l' l'') :
    List.Forall₂ Q l l'' := by
  induction h generalizing l'' with
  | nil =>
      cases h'
      exact .nil
  | cons hhead _ ih =>
      cases h' with
      | cons hhead' htail' => exact .cons (hcomp _ _ _ hhead hhead') (ih htail')

theorem forall_mem_iff_of_forall₂ {p : α → Prop} {q : β → Prop} (hP : ∀ a b, P a b → (q b ↔ p a))
    {l : List α} {l' : List β} (h : List.Forall₂ P l l') : (∀ b ∈ l', q b) ↔ ∀ a ∈ l, p a := by
  induction h with
  | nil => simp
  | cons hhead _ ih => rw [List.forall_mem_cons, List.forall_mem_cons, hP _ _ hhead, ih]

theorem map_eq_of_forall₂ {f : α → γ} {g : β → γ} (hP : ∀ a b, P a b → g b = f a) {l : List α}
    {l' : List β} (h : List.Forall₂ P l l') : l'.map g = l.map f := by
  induction h with
  | nil => rfl
  | cons hhead _ ih => rw [List.map_cons, List.map_cons, hP _ _ hhead, ih]

end Forall

/-! ## Effects on one window -/

namespace Window

variable {κ : Type} {w w' : Window κ} {clock : Nat}

/-- A clock reading at which the deadline of a visit fits its signed word. -/
def Fits (w : Window κ) (clock : Nat) : Prop :=
  w.anchor ≤ clock ∧ clock - w.anchor + w.span.toNanos < 2 ^ 63

instance (w : Window κ) (clock : Nat) : Decidable (w.Fits clock) :=
  inferInstanceAs (Decidable (_ ∧ _))

theorem Fits.signedNanos_eq (h : w.Fits clock) : w.span.signedNanos = w.span.toNanos := by
  have hlt := h.2
  exact Duration.signedNanos_eq (by omega)

theorem Fits.inRange (h : w.Fits clock) : w.InRange clock := by
  obtain ⟨hanchor, hlt⟩ := h
  refine ⟨hanchor, by omega, ?_⟩
  rw [Fits.signedNanos_eq ⟨hanchor, hlt⟩]
  omega

variable [DecidableEq κ] {k : κ}

inductive Effect (clock : Nat) (c : Rule.Command κ) (w w' : Window κ) : Prop where
  | pruned {lists : κ → List Int} : w.Becomes w' lists →
      (∀ k, lists k = w.deadlines k ∨ lists k = w.live clock k) → Effect clock c w w'
  | recorded {k : κ} : c = .visit k → Recorded clock k w w' → Effect clock c w w'

namespace Effect

variable {c : Rule.Command κ}

theorem refl (hw : w.Valid) : Effect clock c w w := .pruned hw.becomes_self fun _ => .inl rfl

theorem of_pruned (h : Pruned clock k w w') : Effect clock c w w' :=
  .pruned h (w.update_live_eq_or clock k)

theorem becomes (h : Effect clock c w w') : ∃ lists, w.Becomes w' lists := by
  cases h with
  | pruned hw _ => exact ⟨_, hw⟩
  | recorded _ hw => exact ⟨_, hw⟩

theorem fits_iff (h : Effect clock c w w') {clock' : Nat} : w'.Fits clock' ↔ w.Fits clock' := by
  obtain ⟨lists, hw⟩ := h.becomes
  rw [Fits, Fits, hw.anchor, hw.span]

theorem ordered (h : Effect clock c w w') (hw : w.Ordered clock) (hfits : w.Fits clock) :
    w'.Ordered clock := by
  cases h with
  | pruned hbecomes hlists =>
      apply hw.of_sublist hbecomes
      intro k
      rcases hlists k with heq | heq
      · rw [heq]
      · rw [heq]
        exact List.dropWhile_sublist _
  | recorded _ hrecorded => exact hw.record hfits.inRange hrecorded

end Effect

end Window

/-! ## Effects on the windows of a rule -/

namespace Rule

variable {κ : Type}

def Command.added (clock : Nat) : Command κ → List (Window κ)
  | .addWindow span allowance estimated => [.create clock span allowance estimated]
  | _ => []

variable [DecidableEq κ] {mode : RuleMode} {clock : Nat} {k : κ} {ws ws' : List (Window κ)}
  {v : Verdict}

/-- What becomes of a window that recorded a visit which a later window refused. -/
def AfterRefusal (mode : RuleMode) (clock : Nat) (k : κ) (w w' : Window κ) : Prop :=
  match mode with
  | .independent => Window.Recorded clock k w w'
  | .transactional => Window.Pruned clock k w w'

inductive Asked (mode : RuleMode) (clock : Nat) (k : κ) :
    List (Window κ) → List (Window κ) → Verdict → Prop where
  | nil : Asked mode clock k [] [] .admitted
  | full {w w' : Window κ} {ws : List (Window κ)} : ¬ w.HasRoom clock k →
      Window.Pruned clock k w w' →
      Asked mode clock k (w :: ws) (w' :: ws) (.refused (w.hint clock k))
  | admitted {w w' : Window κ} {ws ws' : List (Window κ)} : w.HasRoom clock k →
      Window.Recorded clock k w w' → Asked mode clock k ws ws' .admitted →
      Asked mode clock k (w :: ws) (w' :: ws') .admitted
  | refused {w w' : Window κ} {ws ws' : List (Window κ)} {d : Duration} : w.HasRoom clock k →
      AfterRefusal mode clock k w w' → Asked mode clock k ws ws' (.refused d) →
      Asked mode clock k (w :: ws) (w' :: ws') (.refused d)

theorem asked_visitWindows (mode : RuleMode) (clock : Nat) (k : κ)
    (hvalid : ∀ w ∈ ws, w.Valid) :
    Asked mode clock k ws (visitWindows mode clock k ws).1 (visitWindows mode clock k ws).2 := by
  induction ws with
  | nil => exact .nil
  | cons w ws ih =>
      have hw := hvalid w List.mem_cons_self
      have htail := ih fun w' hw' => hvalid w' (List.mem_cons_of_mem _ hw')
      by_cases hroom : w.HasRoom clock k
      · obtain ⟨hadmitted, hrecorded⟩ := hw.visit_of_room hroom
        have hback := hw.rollback_visit hroom
        rw [visitWindows]
        generalize w.visit clock k = visited at hadmitted hrecorded hback
        obtain ⟨w', _⟩ := visited
        cases hadmitted
        generalize visitWindows mode clock k ws = rest at htail
        obtain ⟨ws', v⟩ := rest
        cases v with
        | admitted => exact .admitted hroom hrecorded htail
        | refused d =>
            cases mode with
            | independent => exact .refused hroom hrecorded htail
            | transactional => exact .refused hroom hback htail
      · obtain ⟨hrefused, hpruned⟩ := hw.visit_of_full hroom
        rw [visitWindows]
        generalize w.visit clock k = visited at hrefused hpruned
        obtain ⟨w', _⟩ := visited
        cases hrefused
        exact .full hroom hpruned

theorem Asked.admitted_iff (h : Asked mode clock k ws ws' v) :
    v = .admitted ↔ ∀ w ∈ ws, w.HasRoom clock k := by
  induction h with
  | nil => simp
  | full hfull _ => simp [hfull]
  | admitted hroom _ _ ih => simpa [hroom] using ih
  | refused hroom _ _ ih => simpa [hroom] using ih

theorem Asked.effect (h : Asked mode clock k ws ws' v) (hvalid : ∀ w ∈ ws, w.Valid) :
    List.Forall₂ (Window.Effect clock (.visit k)) ws ws' := by
  induction h with
  | nil => exact .nil
  | full _ hpruned =>
      refine .cons (.of_pruned hpruned) (List.forall₂_same.2 ?_)
      exact fun w hw => .refl (hvalid w (List.mem_cons_of_mem _ hw))
  | admitted _ hrecorded _ ih =>
      exact .cons (.recorded rfl hrecorded) (ih fun w hw => hvalid w (List.mem_cons_of_mem _ hw))
  | refused _ hback _ ih =>
      refine .cons ?_ (ih fun w hw => hvalid w (List.mem_cons_of_mem _ hw))
      cases mode with
      | independent => exact .recorded rfl hback
      | transactional => exact .of_pruned hback

variable {r r' : Rule κ} {c : Command κ} {a : Answer}

theorem asked_visit (clock : Nat) (k : κ) (hvalid : ∀ w ∈ r.windows, w.Valid) :
    Asked r.mode clock k r.windows (r.visit clock k).1.windows (r.visit clock k).2 :=
  asked_visitWindows r.mode clock k hvalid

theorem Step.asked (hstep : Step clock r (.visit k) r' (.verdict v))
    (hvalid : ∀ w ∈ r.windows, w.Valid) : Asked r.mode clock k r.windows r'.windows v := by
  generalize ha : Answer.verdict v = a at hstep
  cases hstep with
  | visit =>
      rw [Answer.verdict.inj ha]
      exact asked_visit clock k hvalid

theorem effect_of_swept {w w' : Window κ} (h : Window.Swept clock w w') (hw : w.Valid) :
    Window.Effect clock c w w' :=
  .pruned (h.becomes hw) fun _ => .inr rfl

/-- Whatever the command, the windows stay in place, and one that is added comes last. -/
theorem Step.effect (hstep : Step clock r c r' a) (hvalid : ∀ w ∈ r.windows, w.Valid) :
    ∃ ws, List.Forall₂ (Window.Effect clock c) r.windows ws ∧
      r'.windows = ws ++ c.added clock := by
  have hsame : List.Forall₂ (Window.Effect clock c) r.windows r.windows :=
    List.forall₂_same.2 fun w hw => .refl (hvalid w hw)
  cases hstep with
  | visit k =>
      exact ⟨_, (asked_visit clock k hvalid).effect hvalid, (List.append_nil _).symm⟩
  | remaining k =>
      refine ⟨r.windows.map fun w => (w.remaining clock k).1, ?_, ?_⟩
      · rw [List.forall₂_map_right_iff]
        exact List.forall₂_same.2 fun w hw => .of_pruned ((hvalid w hw).remaining_pruned clock k).2
      · simp [Rule.remaining, Command.added, Function.comp_def]
  | sweep hswept =>
      refine ⟨_, ?_, (List.append_nil _).symm⟩
      refine ((List.forall₂_and_left _ _).2 ⟨hvalid, hswept⟩).imp ?_
      exact fun w w' h => effect_of_swept h.2 h.1
  | @sweepWindow before after w w' hsplit hswept =>
      refine ⟨_, ?_, (List.append_nil _).symm⟩
      rw [hsplit] at hvalid ⊢
      rw [List.forall_mem_append, List.forall_mem_cons] at hvalid
      obtain ⟨hbefore, hw, hafter⟩ := hvalid
      apply List.rel_append (List.forall₂_same.2 fun w hw => .refl (hbefore w hw))
      exact .cons (effect_of_swept hswept hw) (List.forall₂_same.2 fun w hw => .refl (hafter w hw))
  | sweepNone _ => exact ⟨_, hsame, (List.append_nil _).symm⟩
  | addWindow span allowance estimated => exact ⟨_, hsame, rfl⟩
  | setMode mode => exact ⟨_, hsame, (List.append_nil _).symm⟩

/-! ## Histories in which no deadline overflows -/

/-- The clock does not go back, and each window is added early enough for all that comes after. -/
def Timely (history : List (Event (Command κ) Answer)) : Prop :=
  history.Pairwise fun e e' =>
    e.clock ≤ e'.clock ∧ ∀ w ∈ e.command.added e.clock, w.Fits e'.clock

instance (history : List (Event (Command κ) Answer)) : Decidable (Timely history) :=
  inferInstanceAs (Decidable (List.Pairwise _ _))

/-- A rule with its deadlines in order, and events to come at which they fit. -/
structure Orderly (r : Rule κ) (rest : List (Event (Command κ) Answer)) : Prop where
  ordered : ∃ clock, (∀ w ∈ r.windows, w.Ordered clock) ∧ ∀ e ∈ rest, clock ≤ e.clock
  fits : ∀ e ∈ rest, ∀ w ∈ r.windows, w.Fits e.clock
  timely : Timely rest

variable {rest : List (Event (Command κ) Answer)}

theorem orderly_empty (mode : RuleMode) (h : Timely rest) :
    (⟨[], mode⟩ : Rule κ).Orderly rest := by
  refine ⟨⟨0, ?_, fun _ _ => Nat.zero_le _⟩, ?_, h⟩ <;> simp

theorem Orderly.now (h : r.Orderly (⟨clock, c, a⟩ :: rest)) :
    ∀ w ∈ r.windows, w.Ordered clock ∧ w.Fits clock := by
  obtain ⟨before, hordered, hle⟩ := h.ordered
  intro w hw
  exact ⟨(hordered w hw).advance (hle _ List.mem_cons_self), h.fits _ List.mem_cons_self w hw⟩

theorem Orderly.ordered_after (h : r.Orderly (⟨clock, c, a⟩ :: rest))
    (hstep : Step clock r c r' a) : ∀ w ∈ r'.windows, w.Ordered clock := by
  obtain ⟨ws, heffect, hwindows⟩ := hstep.effect fun w hw => (h.now w hw).1.valid
  rw [hwindows, List.forall_mem_append]
  constructor
  · intro w' hw'
    obtain ⟨w, hw, hww'⟩ := exists_of_forall₂ heffect hw'
    exact hww'.ordered (h.now w hw).1 (h.now w hw).2
  · cases c <;> simp [Command.added, Window.Ordered.create]

theorem Orderly.step (h : r.Orderly (⟨clock, c, a⟩ :: rest)) (hstep : Step clock r c r' a) :
    r'.Orderly rest := by
  obtain ⟨hlater, htimely⟩ := List.pairwise_cons.1 h.timely
  obtain ⟨ws, heffect, hwindows⟩ := hstep.effect fun w hw => (h.now w hw).1.valid
  refine ⟨⟨clock, h.ordered_after hstep, fun e he => (hlater e he).1⟩, ?_, htimely⟩
  intro e he
  rw [hwindows, List.forall_mem_append]
  constructor
  · intro w' hw'
    obtain ⟨w, hw, hww'⟩ := exists_of_forall₂ heffect hw'
    exact hww'.fits_iff.2 (h.fits e (List.mem_cons_of_mem _ he) w hw)
  · exact (hlater e he).2

theorem Orderly.runs {history : List (Event (Command κ) Answer)} (h : r.Orderly (history ++ rest))
    (hruns : Runs Step r history r') : r'.Orderly rest := by
  induction hruns with
  | nil => exact h
  | cons hstep _ ih => exact ih (h.step hstep)

end Rule

end Throttle
