import Throttle.Proofs.ByteOrder
import Throttle.Proofs.RuleEffects

/-!
# The report of the keys that are online

A window counts the visits that it records, unless the rule takes them back.  Its verdict and those
of the other windows decide which these are, so the logs are kept beside the rule, one for each
window.  A window tracks its log, whatever the mode: the deadlines of a key that are not past are
those of the visits it counts.  A key with such a visit is therefore bound, and after a sweep no
other key is.
-/

namespace Throttle

namespace Window

variable {κ : Type} [DecidableEq κ] {w w' : Window κ} {log : VisitLog κ} {clock : Nat} {k : κ}

theorem Valid.visit_admitted_iff (h : w.Valid) :
    (w.visit clock k).2 = .admitted ↔ w.HasRoom clock k := by
  by_cases hroom : w.HasRoom clock k
  · simp [hroom, (h.visit_of_room hroom).1]
  · simp [hroom, (h.visit_of_full hroom).1]

theorem Effect.tracks {c : Rule.Command κ} (h : Effect clock c w w') (hc : ∀ k, c ≠ .visit k)
    (hin : w.InRange clock) (htracks : w.Tracks log clock) : w'.Tracks log clock := by
  cases h with
  | pruned hbecomes hlists => exact htracks.prune hin hbecomes hlists
  | recorded heq _ => exact absurd heq (hc _)

theorem mem_online_of_live (h : w.live clock k ≠ []) : k ∈ w.online :=
  mem_online_iff.2 (mt (live_of_not_bound · clock) h)

theorem Tracks.live_ne_nil_iff (h : w.Tracks log clock) (hfits : w.Fits clock) :
    w.live clock k ≠ [] ↔ ∃ s ∈ log.instants k, clock ≤ s + w.span.toNanos := by
  rw [h.live_eq hfits.inRange, Ne, List.map_eq_nil_iff, List.eq_nil_iff_forall_not_mem]
  push Not
  simp only [VisitLog.mem_recent, hfits.signedNanos_eq]
  norm_cast

end Window

namespace Rule

variable {κ : Type}

/-- A rule together with the visits that each of its windows counts. -/
structure Logged (κ : Type) where
  rule : Rule κ
  logs : List (VisitLog κ)

variable [DecidableEq κ]

/--
A window that admits a visit counts it if the windows before it admit it too, and in transactional
mode only if those behind it do as well.
-/
def logVisit (mode : RuleMode) (clock : Nat) (k : κ) :
    List (Window κ) → List (VisitLog κ) → List (VisitLog κ)
  | w :: ws, log :: logs =>
      if (w.visit clock k).2 = .admitted then
        (if mode = .transactional ∧ ∃ w' ∈ ws, (w'.visit clock k).2 ≠ .admitted then log
          else log ++ [(clock, k)]) :: logVisit mode clock k ws logs
      else log :: logs
  | _, logs => logs

namespace Logged

/-- The logs after a command. -/
def logsAfter (s : Logged κ) (clock : Nat) : Command κ → List (VisitLog κ)
  | .visit k => logVisit s.rule.mode clock k s.rule.windows s.logs
  | .addWindow _ _ _ => s.logs ++ [[]]
  | _ => s.logs

/-- Any step of the rule, with the logs that it leaves. -/
inductive Step (clock : Nat) (s : Logged κ) (c : Command κ) : Logged κ → Answer → Prop where
  | intro {r : Rule κ} {a : Answer} : Rule.Step clock s.rule c r a →
      Step clock s c ⟨r, s.logsAfter clock c⟩ a

def run (s : Logged κ) : List (Nat × Command κ) → Logged κ
  | [] => s
  | (clock, c) :: rest => run ⟨(s.rule.step clock c).1, s.logsAfter clock c⟩ rest

theorem runs_history (s : Logged κ) (commands : List (Nat × Command κ)) :
    Runs Step s (s.rule.history commands) (s.run commands) := by
  induction commands generalizing s with
  | nil => exact .nil s
  | cons c rest ih => exact .cons (.intro (step_step c.1 s.rule c.2)) (ih _)

/-- Some window counts a visit of the key that is no more than the span of the window ago. -/
def Active (s : Logged κ) (now : Nat) (k : κ) : Prop :=
  ∃ p ∈ s.rule.windows.zip s.logs, ∃ instant ∈ p.2.instants k, now ≤ instant + p.1.span.toNanos

instance (s : Logged κ) (now : Nat) (k : κ) : Decidable (s.Active now k) :=
  inferInstanceAs (Decidable (∃ _ ∈ _, ∃ _ ∈ _, _))

end Logged

/-! ## Each window tracks its log -/

/-- Side by side, the windows track the logs. -/
def Tracks (clock : Nat) (ws : List (Window κ)) (logs : List (VisitLog κ)) : Prop :=
  List.Forall₂ (fun w log => w.Tracks log clock) ws logs

variable {mode : RuleMode} {clock now : Nat} {k : κ} {c : Command κ} {a : Answer} {r : Rule κ}
  {ws ws' : List (Window κ)} {logs : List (VisitLog κ)} {v : Verdict} {s s' : Logged κ}
  {history rest : List (Event (Command κ) Answer)}

theorem Asked.tracks (h : Asked mode clock k ws ws' v) (hfits : ∀ w ∈ ws, w.Fits clock)
    (htracks : Tracks clock ws logs) : Tracks clock ws' (logVisit mode clock k ws logs) := by
  have hverdict : ∀ w ∈ ws, (w.visit clock k).2 = .admitted ↔ w.HasRoom clock k := by
    intro w hw
    obtain ⟨log, -, hlog⟩ := exists_of_forall₂ htracks.flip hw
    exact hlog.valid.visit_admitted_iff
  induction h generalizing logs with
  | nil =>
      cases htracks
      exact .nil
  | full hfull hpruned =>
      cases htracks with
      | cons hhead htail =>
          rw [List.forall_mem_cons] at hverdict hfits
          rw [logVisit, if_neg (mt hverdict.1.1 hfull)]
          exact .cons (hhead.update_live hfits.1.inRange hpruned) htail
  | admitted hroom hrecorded hrest ih =>
      cases htracks with
      | cons hhead htail =>
          rw [List.forall_mem_cons] at hverdict hfits
          have hlater := hrest.admitted_iff.1 rfl
          rw [logVisit, if_pos (hverdict.1.2 hroom), if_neg]
          · exact .cons (hhead.record hfits.1.inRange hrecorded) (ih hfits.2 htail hverdict.2)
          · rintro ⟨-, w', hw', hrefused⟩
            exact hrefused ((hverdict.2 w' hw').2 (hlater w' hw'))
  | @refused w w' ws ws' d hroom hback hrest ih =>
      cases htracks with
      | cons hhead htail =>
          rw [List.forall_mem_cons] at hverdict hfits
          have hkept := ih hfits.2 htail hverdict.2
          rw [logVisit, if_pos (hverdict.1.2 hroom)]
          cases mode with
          | independent =>
              rw [if_neg (by simp)]
              exact .cons (hhead.record hfits.1.inRange hback) hkept
          | transactional =>
              -- The visit is taken back: it leaves no deadline, and it is not counted.
              have hlater : ¬ ∀ w ∈ ws, w.HasRoom clock k := mt hrest.admitted_iff.2 (by simp)
              rw [if_pos]
              · exact .cons (hhead.update_live hfits.1.inRange hback) hkept
              · push Not at hlater
                obtain ⟨w', hw', hfull⟩ := hlater
                exact ⟨rfl, w', hw', mt (hverdict.2 w' hw').1 hfull⟩

theorem Step.tracks (hstep : Step clock s.rule c r a)
    (hwindows : ∀ w ∈ s.rule.windows, w.Ordered clock ∧ w.Fits clock)
    (h : Tracks clock s.rule.windows s.logs) :
    Tracks clock r.windows (s.logsAfter clock c) := by
  have hvalid := fun w hw => (hwindows w hw).1.valid
  obtain ⟨ws, heffect, heq⟩ := hstep.effect hvalid
  -- Only a visit writes to a log; after any other command each window tracks the one it had.
  have hkept : (∀ k, c ≠ .visit k) → Tracks clock ws s.logs := by
    intro hc
    have heffect' := ((List.forall₂_and_left _ _).2 ⟨hwindows, heffect⟩).flip
    exact forall₂_comp (fun w' w log hw hlog => hw.2.tracks hc hw.1.2.inRange hlog) heffect' h
  cases hstep with
  | visit k => exact (asked_visit clock k hvalid).tracks (fun w hw => (hwindows w hw).2) h
  | addWindow span allowance estimated =>
      rw [heq]
      exact List.rel_append (hkept (by simp))
        (.cons (.create clock span allowance estimated) .nil)
  | _ =>
      simp only [Command.added, List.append_nil] at heq
      rw [heq]
      exact hkept (by simp)

/-- A rule whose windows track their logs, with events to come at which no deadline overflows. -/
structure Logged.Follows (s : Logged κ) (rest : List (Event (Command κ) Answer)) : Prop where
  orderly : s.rule.Orderly rest
  tracks : ∃ clock, Tracks clock s.rule.windows s.logs ∧ ∀ e ∈ rest, clock ≤ e.clock

namespace Logged.Follows

theorem tracks_now (h : s.Follows (⟨clock, c, a⟩ :: rest)) :
    Tracks clock s.rule.windows s.logs := by
  obtain ⟨before, htracks, hle⟩ := h.tracks
  exact htracks.imp fun w log hlog => hlog.advance (hle _ List.mem_cons_self)

theorem step (h : s.Follows (⟨clock, c, a⟩ :: rest)) (hstep : Step clock s c s' a) :
    s'.Follows rest := by
  have hlater := (List.pairwise_cons.1 h.orderly.timely).1
  cases hstep with
  | intro hstep =>
      exact ⟨h.orderly.step hstep, clock, hstep.tracks h.orderly.now h.tracks_now,
        fun e he => (hlater e he).1⟩

theorem runs (h : s.Follows (history ++ rest)) (hruns : Runs Step s history s') :
    s'.Follows rest := by
  induction hruns with
  | nil => exact h
  | cons hstep _ ih => exact ih (h.step hstep)

end Logged.Follows

/-! ## Keys that are bound -/

theorem mem_online {r : Rule Key} {t : String} :
    t ∈ r.online ↔ ∃ k, (∃ w ∈ r.windows, k ∈ w.online) ∧ k.toText = t := by
  simp only [online, Ascending.mem_ofList, List.mem_map, List.mem_flatMap]

theorem Logged.Active.bound (h : s.Active now k) (hfits : ∀ w ∈ s.rule.windows, w.Fits now)
    (htracks : Tracks now s.rule.windows s.logs) : ∃ w ∈ s.rule.windows, k ∈ w.online := by
  obtain ⟨⟨w, log⟩, hmem, hvisit⟩ := h
  have hw := (List.of_mem_zip hmem).1
  have hlive := ((List.forall₂_zip htracks hmem).live_ne_nil_iff (hfits w hw)).2 hvisit
  exact ⟨w, hw, Window.mem_online_of_live hlive⟩

theorem bound_after_sweep (hswept : List.Forall₂ (Window.Swept now) ws ws')
    (hfits : ∀ w ∈ ws, w.Fits now) (htracks : Tracks now ws logs) :
    (∃ w ∈ ws', k ∈ w.online) ↔
      ∃ p ∈ ws.zip logs, ∃ instant ∈ p.2.instants k, now ≤ instant + p.1.span.toNanos := by
  induction hswept generalizing logs with
  | nil => simp
  | cons hswept _ ih =>
      cases htracks with
      | cons hhead htail =>
          rw [List.forall_mem_cons] at hfits
          simp only [List.zip_cons_cons, List.exists_mem_cons_iff, ih hfits.2 htail,
            hswept.mem_online hhead.valid, hhead.live_ne_nil_iff hfits.1]

/--
The report of a rule ascends strictly in the order of bytes.  Along any run in which the clock does
not go back and no deadline overflows, it shows every key that has a visit which some window
recorded, not taken back since, and still counts.  Right after a sweep of all windows it shows
nothing else.
-/
theorem online_exactly {mode : RuleMode} {history : List (Event (Command Key) Answer)}
    {s : Logged Key} {now : Nat} (hruns : Runs Logged.Step ⟨⟨[], mode⟩, []⟩ history s)
    (htimely : Timely (history ++ [⟨now, .sweep, .done⟩])) :
    s.logs.length = s.rule.windows.length ∧
    s.rule.online.Pairwise (fun t t' => Text.bytes t < Text.bytes t') ∧
    (∀ k, s.Active now k → k.toText ∈ s.rule.online) ∧
    ∀ r, Step now s.rule .sweep r .done →
      r.online.Pairwise (fun t t' => Text.bytes t < Text.bytes t') ∧
      ∀ t, t ∈ r.online ↔ ∃ k, s.Active now k ∧ k.toText = t := by
  have hstart : Logged.Follows ⟨⟨[], mode⟩, []⟩ (history ++ [⟨now, .sweep, .done⟩]) :=
    ⟨orderly_empty mode htimely, 0, .nil, fun _ _ => Nat.zero_le _⟩
  have hend := hstart.runs hruns
  have hfits := fun w hw => (hend.orderly.now w hw).2
  refine ⟨hend.tracks_now.length_eq.symm, Text.pairwise_bytes _, ?_, ?_⟩
  · exact fun k hactive => mem_online.2 ⟨k, hactive.bound hfits hend.tracks_now, rfl⟩
  · intro r hstep
    refine ⟨Text.pairwise_bytes _, ?_⟩
    intro t
    rw [mem_online]
    cases hstep with
    | sweep hswept => simp only [bound_after_sweep hswept hfits hend.tracks_now, Logged.Active]

/-- Two keys share a text, a visit is taken back, and a past key is bound until the sweep. -/
theorem online_before_and_after_sweep :
    let start : Logged Key := ⟨⟨[], .transactional⟩, []⟩
    let commands := [(0, .addWindow (.ofSecs 10) 2 none), (0, .addWindow (.ofSecs 1) 1 none),
      (0, .visit (.text "é")), (0, .addWindow (.ofSecs 1) 1 none), (1, .visit (.int 7)),
      (2, .visit (.text "7")), (2, .setMode .independent), (3, .visit (.text "7")),
      (4, .setMode .transactional), (5, .visit (.int 7))]
    let s := start.run commands
    let swept := s.rule.sweep 10000000001
    s.logs = [[(0, .text "é"), (1, .int 7), (2, .text "7"), (3, .text "7")],
      [(0, .text "é"), (1, .int 7), (2, .text "7")], [(1, .int 7), (2, .text "7")]] ∧
    s.rule.online = ["7", "é"] ∧ s.Active 10000000001 (.int 7) ∧
    swept.online = ["7"] ∧ ∀ t, t ∈ swept.online ↔ ∃ k, s.Active 10000000001 k ∧ k.toText = t := by
  intro start commands s swept
  have hlogs : s.logs = [[(0, .text "é"), (1, .int 7), (2, .text "7"), (3, .text "7")],
      [(0, .text "é"), (1, .int 7), (2, .text "7")], [(1, .int 7), (2, .text "7")]] := by
    decide +kernel
  have hruns : Runs Logged.Step start _ s := start.runs_history commands
  have htimely : Timely (start.rule.history commands ++ [⟨10000000001, .sweep, .done⟩]) := by
    decide +kernel
  have hswept := (online_exactly hruns htimely).2.2.2 swept (step_step _ s.rule .sweep)
  exact ⟨hlogs, by decide +kernel, by decide +kernel, by decide +kernel, hswept.2⟩

end Rule

end Throttle
