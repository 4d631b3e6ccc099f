import Throttle.Proofs.RuleEffects

/-!
# A transactional rule is the conjunction of its windows

The ideal rule keeps one log for each window, of the visits that the whole rule has admitted since
the window was added.  A visit goes to all logs or to none.  The real rule writes to each window
before it knows what the later ones say, and takes back what it wrote.  The invariant that carries
the induction over a history is `Follows`: every window tracks the log of its quota.
-/

namespace Throttle

/-- A window of the ideal rule: its span in nanoseconds, its allowance, and what it has counted. -/
structure Quota (κ : Type) where
  span : Nat
  allowance : Nat
  log : VisitLog κ
  deriving DecidableEq, Repr

namespace Quota

variable {κ : Type} [DecidableEq κ] {q : Quota κ} {w w' : Window κ} {clock : Nat} {k : κ}

def counted (q : Quota κ) (clock : Nat) (k : κ) : List Nat := q.log.recent q.span clock k

def verdict (q : Quota κ) (clock : Nat) (k : κ) : Verdict :=
  q.log.verdict q.span q.allowance clock k

omit [DecidableEq κ] in
def record (clock : Nat) (k : κ) (q : Quota κ) : Quota κ := { q with log := q.log ++ [(clock, k)] }

theorem verdict_eq_admitted_iff :
    q.verdict clock k = .admitted ↔ (q.counted clock k).length < q.allowance := by
  simp only [verdict, VisitLog.verdict, counted]
  split <;> simp_all

structure Tracked (clock : Nat) (q : Quota κ) (w : Window κ) : Prop where
  tracks : w.Tracks q.log clock
  span : w.span.toNanos = q.span
  allowance : w.allowance = q.allowance

namespace Tracked

theorem create (clock : Nat) (span : Duration) (allowance : Nat) (estimated : Option Nat) :
    Tracked clock (⟨(max span minSpan).toNanos, max allowance 1, []⟩ : Quota κ)
      (.create clock span allowance estimated) :=
  ⟨.create clock span allowance estimated, rfl, rfl⟩

theorem advance {clock' : Nat} (h : q.Tracked clock w) (hle : clock ≤ clock') :
    q.Tracked clock' w :=
  ⟨h.tracks.advance hle, h.span, h.allowance⟩

theorem of_becomes {log : VisitLog κ} {lists : κ → List Int} (h : q.Tracked clock w)
    (hw : w.Becomes w' lists) (htracks : w'.Tracks log clock) :
    Tracked clock { q with log } w' := by
  refine ⟨htracks, ?_, ?_⟩
  · rw [hw.span]
    exact h.span
  · rw [hw.allowance]
    exact h.allowance

theorem counted_eq (h : q.Tracked clock w) (hfits : w.Fits clock) (k : κ) :
    q.log.recent w.span.signedNanos clock k = q.counted clock k := by
  rw [counted, hfits.signedNanos_eq, h.span]

theorem verdict_eq (h : q.Tracked clock w) (hfits : w.Fits clock) (k : κ) :
    q.log.verdict w.span.signedNanos w.allowance clock k = q.verdict clock k := by
  rw [verdict, hfits.signedNanos_eq, h.span, h.allowance]

theorem verdict_of_room (h : q.Tracked clock w) (hfits : w.Fits clock)
    (hroom : w.HasRoom clock k) : q.verdict clock k = .admitted := by
  rw [← h.verdict_eq hfits, h.tracks.verdict_of_room hfits.inRange hroom]

theorem verdict_of_full (h : q.Tracked clock w) (hfits : w.Fits clock)
    (hfull : ¬ w.HasRoom clock k) : q.verdict clock k = .refused (w.hint clock k) := by
  rw [← h.verdict_eq hfits, h.tracks.verdict_of_full hfits.inRange hfull]

theorem pruned (h : q.Tracked clock w) (hfits : w.Fits clock) (hw : Window.Pruned clock k w w') :
    q.Tracked clock w' :=
  h.of_becomes hw (h.tracks.update_live hfits.inRange hw)

theorem recorded (h : q.Tracked clock w) (hfits : w.Fits clock)
    (hw : Window.Recorded clock k w w') : (q.record clock k).Tracked clock w' :=
  h.of_becomes hw (h.tracks.record hfits.inRange hw)

theorem effect {c : Rule.Command κ} (h : q.Tracked clock w) (hfits : w.Fits clock)
    (hw : Window.Effect clock c w w') (hc : ∀ k, c ≠ .visit k) : q.Tracked clock w' := by
  cases hw with
  | pruned hbecomes hlists =>
      exact h.of_becomes hbecomes (h.tracks.prune hfits.inRange hbecomes hlists)
  | recorded heq _ => exact absurd heq (hc _)

end Tracked

end Quota

namespace Rule

variable {κ : Type} [DecidableEq κ]

/-! ## The ideal rule -/

def verdictOf (clock : Nat) (k : κ) : List (Quota κ) → Verdict
  | [] => .admitted
  | q :: qs =>
      match q.verdict clock k with
      | .admitted => verdictOf clock k qs
      | .refused d => .refused d

theorem verdictOf_eq_admitted_iff {clock : Nat} {k : κ} {qs : List (Quota κ)} :
    verdictOf clock k qs = .admitted ↔ ∀ q ∈ qs, (q.counted clock k).length < q.allowance := by
  induction qs with
  | nil => simp [verdictOf]
  | cons q qs ih =>
      rw [List.forall_mem_cons, ← Quota.verdict_eq_admitted_iff, ← ih, verdictOf]
      cases q.verdict clock k <;> simp

/-- Only visits that are admitted and windows that are added leave something behind. -/
def conjunction : Ideal (List (Quota κ)) (Command κ) Answer where
  answer? qs clock
    | .visit k => some (.verdict (verdictOf clock k qs))
    | .remaining k => some (.counts (qs.map fun q => q.allowance - (q.counted clock k).length))
    | _ => some .done
  next qs
    | ⟨clock, .visit k, .verdict .admitted⟩ => qs.map (.record clock k)
    | ⟨_, .addWindow span allowance _, _⟩ =>
        qs ++ [⟨(max span minSpan).toNanos, max allowance 1, []⟩]
    | _ => qs

/-- The quotas of the windows added in a history, each with what it counted since then. -/
def quotas (history : List (Event (Command κ) Answer)) : List (Quota κ) :=
  conjunction.after [] history

def Refused (e : Event (Command κ) Answer) : Prop :=
  ∃ k d, e.command = .visit k ∧ e.answer = .verdict (.refused d)

theorem next_of_refused {qs : List (Quota κ)} {e : Event (Command κ) Answer} (h : Refused e) :
    conjunction.next qs e = qs := by
  obtain ⟨clock, command, answer⟩ := e
  obtain ⟨k, d, hcommand, hanswer⟩ := h
  simp only at hcommand hanswer
  rw [hcommand, hanswer]
  rfl

/-! ## The invariant -/

variable {r r' : Rule κ} {qs : List (Quota κ)} {clock : Nat} {c : Command κ} {a : Answer}
  {k : κ} {v : Verdict} {ws ws' : List (Window κ)} {history : List (Event (Command κ) Answer)}

theorem Asked.tracked (h : Asked .transactional clock k ws ws' v) (hfits : ∀ w ∈ ws, w.Fits clock)
    (htracked : List.Forall₂ (Quota.Tracked clock) qs ws) :
    v = verdictOf clock k qs ∧ List.Forall₂ (Quota.Tracked clock)
      (if v = .admitted then qs.map (.record clock k) else qs) ws' := by
  induction h generalizing qs with
  | nil =>
      cases htracked
      exact ⟨rfl, .nil⟩
  | full hfull hpruned =>
      cases htracked with
      | cons hhead htail =>
          have hw := hfits _ List.mem_cons_self
          rw [verdictOf, hhead.verdict_of_full hw hfull]
          exact ⟨rfl, .cons (hhead.pruned hw hpruned) htail⟩
  | admitted hroom hrecorded _ ih =>
      cases htracked with
      | cons hhead htail =>
          have hw := hfits _ List.mem_cons_self
          obtain ⟨hverdict, hrest⟩ := ih (fun w hw => hfits w (List.mem_cons_of_mem _ hw)) htail
          rw [verdictOf, hhead.verdict_of_room hw hroom]
          exact ⟨hverdict, .cons (hhead.recorded hw hrecorded) hrest⟩
  | refused hroom hpruned _ ih =>
      cases htracked with
      | cons hhead htail =>
          have hw := hfits _ List.mem_cons_self
          obtain ⟨hverdict, hrest⟩ := ih (fun w hw => hfits w (List.mem_cons_of_mem _ hw)) htail
          rw [verdictOf, hhead.verdict_of_room hw hroom]
          exact ⟨hverdict, .cons (hhead.pruned hw hpruned) hrest⟩

structure Follows (r : Rule κ) (qs : List (Quota κ)) (rest : List (Event (Command κ) Answer)) :
    Prop where
  orderly : r.Orderly rest
  tracked : ∃ clock, List.Forall₂ (Quota.Tracked clock) qs r.windows ∧ ∀ e ∈ rest, clock ≤ e.clock
  mode : r.mode = .transactional
  stays : ∀ e ∈ rest, e.command ≠ .setMode .independent

theorem remaining_eq_of_tracked (hfits : ∀ w ∈ ws, w.Fits clock)
    (h : List.Forall₂ (Quota.Tracked clock) qs ws) (k : κ) :
    ws.map (fun w => (w.remaining clock k).2) =
      qs.map fun q => q.allowance - (q.counted clock k).length := by
  induction h with
  | nil => rfl
  | cons hhead _ ih =>
      have hw := hfits _ List.mem_cons_self
      rw [List.map_cons, List.map_cons, ih fun w hw => hfits w (List.mem_cons_of_mem _ hw),
        (hhead.tracks.remaining hw.inRange k).1, hhead.counted_eq hw, hhead.allowance]

theorem Step.mode_eq (hstep : Step clock r c r' a) (hmode : r.mode = .transactional)
    (hc : c ≠ .setMode .independent) : r'.mode = .transactional := by
  cases hstep with
  | setMode mode =>
      cases mode with
      | independent => exact absurd rfl hc
      | transactional => rfl
  | _ => exact hmode

theorem next_visit (clock : Nat) (k : κ) (v : Verdict) (qs : List (Quota κ)) :
    conjunction.next qs ⟨clock, .visit k, .verdict v⟩ =
      if v = .admitted then qs.map (.record clock k) else qs := by
  cases v <;> rfl

theorem Step.tracked (hstep : Step clock r c r' a) (hmode : r.mode = .transactional)
    (hvalid : ∀ w ∈ r.windows, w.Valid) (hfits : ∀ w ∈ r.windows, w.Fits clock)
    (h : List.Forall₂ (Quota.Tracked clock) qs r.windows) :
    conjunction.Explains qs ⟨clock, c, a⟩ ∧
      List.Forall₂ (Quota.Tracked clock) (conjunction.next qs ⟨clock, c, a⟩) r'.windows := by
  obtain ⟨ws, heffect, hwindows⟩ := hstep.effect hvalid
  -- Only a visit writes to a log; after any other command each window tracks the one it had.
  have hkept : (∀ k, c ≠ .visit k) → List.Forall₂ (Quota.Tracked clock) qs ws := by
    intro hc
    have heffect' := (List.forall₂_and_left _ _).2 ⟨hfits, heffect⟩
    exact forall₂_comp (fun q w w' hq hw => hq.effect hw.1 hw.2 hc) h heffect'
  cases hstep with
  | visit k =>
      have hasked := asked_visit clock k hvalid
      rw [hmode] at hasked
      obtain ⟨hverdict, htracked⟩ := hasked.tracked hfits h
      rw [next_visit]
      refine ⟨?_, htracked⟩
      rintro _ ⟨rfl⟩
      rw [hverdict]
  | remaining k =>
      refine ⟨?_, ?_⟩
      · rintro _ ⟨rfl⟩
        rw [← remaining_eq_of_tracked hfits h]
        simp [Rule.remaining, Function.comp_def]
      · simp only [Command.added, List.append_nil] at hwindows
        subst hwindows
        exact hkept (by simp)
  | addWindow span allowance estimated =>
      refine ⟨?_, ?_⟩
      · rintro _ ⟨rfl⟩
        rfl
      · rw [hwindows]
        apply List.rel_append (hkept (by simp))
        exact .cons (.create clock span allowance estimated) .nil
  | _ =>
      refine ⟨?_, ?_⟩
      · rintro _ ⟨rfl⟩
        rfl
      · simp only [Command.added, List.append_nil] at hwindows
        subst hwindows
        exact hkept (by simp)

theorem Follows.step (h : Follows r qs (⟨clock, c, a⟩ :: history)) (hstep : Step clock r c r' a) :
    conjunction.Explains qs ⟨clock, c, a⟩ ∧
      Follows r' (conjunction.next qs ⟨clock, c, a⟩) history := by
  have hlater := (List.pairwise_cons.1 h.orderly.timely).1
  obtain ⟨before, htracked, hle⟩ := h.tracked
  obtain ⟨hexplains, htracked'⟩ := hstep.tracked h.mode
    (fun w hw => (h.orderly.now w hw).1.valid) (fun w hw => (h.orderly.now w hw).2)
    (htracked.imp fun q w hq => hq.advance (hle _ List.mem_cons_self))
  refine ⟨hexplains, h.orderly.step hstep, ⟨clock, htracked', fun e he => (hlater e he).1⟩, ?_, ?_⟩
  · exact hstep.mode_eq h.mode (h.stays _ List.mem_cons_self)
  · exact fun e he => h.stays e (List.mem_cons_of_mem _ he)

theorem follows_empty (htimely : Timely history)
    (hstays : ∀ e ∈ history, e.command ≠ .setMode .independent) :
    Follows (⟨[], .transactional⟩ : Rule κ) [] history :=
  ⟨orderly_empty .transactional htimely, ⟨0, .nil, fun _ _ => Nat.zero_le _⟩, rfl, hstays⟩

theorem Follows.answers (h : Follows r qs history) (hruns : Runs Step r history r') :
    conjunction.Answers qs history :=
  Ideal.answers_of_runs (fun hfollows hstep => hfollows.step hstep) hruns h

/-! ## Whole histories -/

omit [DecidableEq κ] in
theorem Timely.of_calls {kept history' : List (Event (Command κ) Answer)} (h : Timely history)
    (hkept : kept.Sublist history) (hcalls : history'.map Event.call = kept.map Event.call) :
    Timely history' :=
  Event.pairwise_of_calls
    (r := fun c c' => c.1 ≤ c'.1 ∧ ∀ w ∈ Command.added c.1 c.2, w.Fits c'.1) hcalls
    (h.sublist hkept)

theorem eq_of_erased {kept history' : List (Event (Command κ) Answer)}
    (h : conjunction.Answers qs history) (herased : Erased Refused history kept)
    (h' : conjunction.Answers qs history')
    (hcalls : history'.map Event.call = kept.map Event.call) : history' = kept := by
  have hsame := Ideal.answers_of_erased (fun _ => True) ?_ ?_ (fun _ _ => next_of_refused) herased
    h h' hcalls
  · rw [← List.forall₂_eq_eq_eq]
    exact (hsame.imp fun e e' heq => heq trivial).flip
  · rintro qs clock c -
    cases c <;> exact ⟨_, rfl⟩
  · exact fun _ _ _ hopen => absurd trivial hopen

/--
In transactional mode a visit is admitted exactly if every window has counted fewer visits than its
allowance among those that the whole rule has admitted since that window was added, and the room
left in each window is what these counts leave of its allowance.  So refused visits leave no trace:
a history without some of them is again a history of the rule, with all other answers and hints as
they were, and it is the only one with these calls.
-/
theorem transactional_answers_as_conjunction
    (hruns : Runs Step (⟨[], .transactional⟩ : Rule κ) history r) (htimely : Timely history)
    (hstays : ∀ e ∈ history, e.command ≠ .setMode .independent) :
    (∀ before e rest, history = before ++ e :: rest → ∀ k,
      (e.command = .visit k → (e.answer = .verdict .admitted ↔
        ∀ q ∈ quotas before, (q.counted e.clock k).length < q.allowance)) ∧
      (e.command = .remaining k → e.answer =
        .counts ((quotas before).map fun q => q.allowance - (q.counted e.clock k).length))) ∧
    ∀ kept, Erased Refused history kept →
      (∃ r', Runs Step (⟨[], .transactional⟩ : Rule κ) kept r') ∧
      ∀ history' r', Runs Step (⟨[], .transactional⟩ : Rule κ) history' r' →
        history'.map Event.call = kept.map Event.call → history' = kept := by
  have hanswers := (follows_empty htimely hstays).answers hruns
  refine ⟨?_, ?_⟩
  · intro before e rest heq k
    have hexplains := hanswers before e rest heq
    rw [← quotas] at hexplains
    constructor <;> intro hcommand
    · have hverdict := hexplains (.verdict (verdictOf e.clock k (quotas before)))
        (by rw [hcommand]; rfl)
      rw [hverdict, Answer.verdict.injEq, verdictOf_eq_admitted_iff]
    · apply hexplains
      rw [hcommand]
      rfl
  · intro kept herased
    have hsame : ∀ history' r', Runs Step (⟨[], .transactional⟩ : Rule κ) history' r' →
        history'.map Event.call = kept.map Event.call → history' = kept := by
      intro history' r' hruns' hcalls
      have htimely' := htimely.of_calls herased.sublist hcalls
      have hstays' : ∀ e ∈ history', e.command ≠ .setMode .independent :=
        Event.forall_of_calls (p := fun c : Nat × Command κ => c.2 ≠ .setMode .independent) hcalls
          fun e he => hstays e (herased.sublist.subset he)
      exact eq_of_erased hanswers herased ((follows_empty htimely' hstays').answers hruns') hcalls
    have hruns' := runs_history (⟨[], .transactional⟩ : Rule κ) (kept.map Event.call)
    rw [hsame _ _ hruns' (calls_history _ _)] at hruns'
    exact ⟨⟨_, hruns'⟩, hsame⟩

/-- A visit refused by the second window is as good as one that never came. -/
theorem refused_by_second_window :
    (⟨[], .transactional⟩ : Rule Nat).history
        [(0, .addWindow (.ofSecs 10) 5 none), (0, .addWindow (.ofSecs 10) 1 none), (0, .visit 7),
          (1, .visit 7), (2, .remaining 7)] =
      [⟨0, .addWindow (.ofSecs 10) 5 none, .done⟩, ⟨0, .addWindow (.ofSecs 10) 1 none, .done⟩,
        ⟨0, .visit 7, .verdict .admitted⟩, ⟨1, .visit 7, .verdict (.refused (.ofSecs 10))⟩,
        ⟨2, .remaining 7, .counts [4, 0]⟩] ∧
    (⟨[], .transactional⟩ : Rule Nat).history
        [(0, .addWindow (.ofSecs 10) 5 none), (0, .addWindow (.ofSecs 10) 1 none), (0, .visit 7),
          (2, .remaining 7)] =
      [⟨0, .addWindow (.ofSecs 10) 5 none, .done⟩, ⟨0, .addWindow (.ofSecs 10) 1 none, .done⟩,
        ⟨0, .visit 7, .verdict .admitted⟩, ⟨2, .remaining 7, .counts [4, 0]⟩] := by
  have hhistory : (⟨[], .transactional⟩ : Rule Nat).history
      [(0, .addWindow (.ofSecs 10) 5 none), (0, .addWindow (.ofSecs 10) 1 none), (0, .visit 7),
        (1, .visit 7), (2, .remaining 7)] =
    [⟨0, .addWindow (.ofSecs 10) 5 none, .done⟩, ⟨0, .addWindow (.ofSecs 10) 1 none, .done⟩,
      ⟨0, .visit 7, .verdict .admitted⟩, ⟨1, .visit 7, .verdict (.refused (.ofSecs 10))⟩,
      ⟨2, .remaining 7, .counts [4, 0]⟩] := by
    decide +kernel
  have hruns := runs_history (⟨[], .transactional⟩ : Rule Nat)
    [(0, .addWindow (.ofSecs 10) 5 none), (0, .addWindow (.ofSecs 10) 1 none), (0, .visit 7),
      (1, .visit 7), (2, .remaining 7)]
  rw [hhistory] at hruns
  refine ⟨hhistory, ?_⟩
  refine ((transactional_answers_as_conjunction hruns (by decide +kernel) (by simp)).2 _ ?_).2 _ _
    (runs_history _ _) (calls_history _ _)
  exact .keep (.keep (.keep (.drop ⟨7, .ofSecs 10, rfl, rfl⟩ (.keep .nil))))

end Rule

end Throttle
