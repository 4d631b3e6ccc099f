import Throttle.Proofs.SlidingWindow

/-!
# Which spans are enforced

A span is kept as a signed 64-bit count of nanoseconds, so one of 2⁶³ nanoseconds or more comes out
negative or too short, and a key gets more visits than its allowance within the span that was asked
for.  It stays unnoticed only where what comes out is at least 2⁶² nanoseconds: then the clock
leaves the range in which deadlines fit before the first visit expires.
-/

namespace Throttle.Window

/--
No key gets more than its allowance within any closed stretch no longer than the span, in any
history that starts at zero, never goes back, and in which each deadline fits its signed word.
-/
def Enforced (span : Duration) : Prop :=
  ∀ (κ : Type) [DecidableEq κ] (allowance : Nat) (estimated : Option Nat)
    (history : List (Event (Command κ) (Answer κ))) (w : Window κ), 0 < allowance →
    Runs Step (create 0 span allowance estimated) history w →
    (∀ e ∈ history, ∀ k, e.command ≠ .rollback k) →
    history.Pairwise (fun e e' => e.clock ≤ e'.clock) →
    (∀ e ∈ history, e.clock < 2 ^ 63 ∧
      (e.clock : Int) + (max span minSpan).signedNanos < 2 ^ 63) →
    ∀ k first last, last ≤ first + span.toNanos →
      ((admitted history).between first last k).length ≤ allowance

variable {κ : Type} [DecidableEq κ]

theorem capped_signed {span : Duration} {allowance : Nat} {estimated : Option Nat}
    {history : List (Event (Command κ) (Answer κ))} {w : Window κ}
    (hruns : Runs Step (create 0 span allowance estimated) history w)
    (hnoRollback : ∀ e ∈ history, ∀ k, e.command ≠ .rollback k)
    (hordered : history.Pairwise fun e e' => e.clock ≤ e'.clock)
    (hfits : ∀ e ∈ history, e.clock < 2 ^ 63 ∧
      (e.clock : Int) + (max span minSpan).signedNanos < 2 ^ 63) :
    (admitted history).Capped (max span minSpan).signedNanos (max allowance 1) := by
  have hfollows : Follows (max span minSpan).signedNanos (max allowance 1)
      (create 0 span allowance estimated) [] history := by
    refine .create hordered ?_ hnoRollback
    intro e he
    have := hfits e he
    omega
  exact capped_of_answers (VisitLog.capped_nil _ _) (hfollows.answers hruns)

theorem toNanos_max_minSpan (span : Duration) :
    (max span minSpan).toNanos = max span.toNanos 1000000 := by
  rw [Duration.toNanos_max, minSpan, Duration.toNanos_ofNanos (by decide)]

theorem max_minSpan_of_le {span : Duration} (h : 2 ^ 63 ≤ span.toNanos) :
    max span minSpan = span := by
  apply Duration.toNanos_injective
  rw [toNanos_max_minSpan]
  omega

theorem enforced_of_lt {span : Duration} (h : span.toNanos < 2 ^ 63) : Enforced span := by
  intro κ _ allowance estimated history w hpos hruns hnoRollback hordered hfits k first last hlast
  have hcap := capped_signed hruns hnoRollback hordered hfits
  have hmax := toNanos_max_minSpan span
  rw [Duration.signedNanos_eq (by omega), Nat.max_eq_left (Nat.succ_le_of_lt hpos)] at hcap
  apply hcap k first last
  omega

theorem enforced_of_long {span : Duration} (hlong : 2 ^ 63 ≤ span.toNanos)
    (h : 2 ^ 62 ≤ span.signedNanos) : Enforced span := by
  intro κ _ allowance estimated history w hpos hruns hnoRollback hordered hfits k first last hlast
  have hcap := capped_signed hruns hnoRollback hordered hfits
  rw [max_minSpan_of_le hlong, Nat.max_eq_left (Nat.succ_le_of_lt hpos)] at hcap
  rw [max_minSpan_of_le hlong] at hfits
  -- No visit is ever late enough to see another one expire.
  have hall : (admitted history).between 0 span.signedNanos.toNat k =
      (admitted history).instants k := by
    apply List.filter_eq_self.2
    intro s hs
    obtain ⟨e, he, rfl⟩ := exists_clock_of_mem_instants hs
    have := hfits e he
    simp only [decide_eq_true_eq]
    omega
  have hlength := hcap k 0 span.signedNanos.toNat (by omega)
  rw [hall] at hlength
  exact Nat.le_trans (List.length_filter_le _ _) hlength

theorem Tracks.admitted_of_recent_eq_nil {w : Window κ} {log : VisitLog κ} {clock : Nat} {k : κ}
    (h : w.Tracks log clock) (hin : w.InRange clock)
    (hnone : log.recent w.span.signedNanos clock k = []) :
    (w.visit clock k).2 = .admitted ∧ (w.visit clock k).1.Tracks (log ++ [(clock, k)]) clock := by
  have hpos := h.valid.allowance_pos
  obtain ⟨hverdict, hvisit⟩ := h.visit hin k
  have hadmitted : (w.visit clock k).2 = .admitted := by
    rw [hverdict, VisitLog.verdict, hnone, List.length_nil]
    exact if_pos hpos
  rw [if_pos hadmitted] at hvisit
  exact ⟨hadmitted, hvisit⟩

/-- Two visits of one key that a span kept too short admits within the span that was asked for. -/
theorem runs_of_too_short {span : Duration} {late : Nat} (hlate : span.signedNanos < late)
    (hrange : late < 2 ^ 63 ∧ late + span.signedNanos < 2 ^ 63)
    (hlong : 2 ^ 63 ≤ span.toNanos) :
    ∃ w, Runs Step (create 0 span 1 none : Window Unit)
      [⟨0, .visit (), .verdict .admitted⟩, ⟨late, .visit (), .verdict .admitted⟩] w := by
  have hstart : (create 0 span 1 none : Window Unit).Tracks [] 0 := .create 0 span 1 none
  have hlt := span.signedNanos_bounds.2
  obtain ⟨hfirst, htracks⟩ := hstart.admitted_of_recent_eq_nil (k := ())
    (by simpa [InRange, create, max_minSpan_of_le hlong] using hlt) rfl
  obtain ⟨lists, hbecomes⟩ := hstart.valid.visit_becomes 0 ()
  have hin : ((create 0 span 1 none : Window Unit).visit 0 ()).1.InRange late :=
    hbecomes.inRange.2 (by simpa [InRange, create, max_minSpan_of_le hlong] using hrange)
  have hspan : ((create 0 span 1 none : Window Unit).visit 0 ()).1.span = span :=
    hbecomes.span.trans (max_minSpan_of_le hlong)
  obtain ⟨hsecond, -⟩ := (htracks.advance (Nat.zero_le late)).admitted_of_recent_eq_nil (k := ())
    hin (by simpa [VisitLog.recent, VisitLog.instants, hspan] using hlate)
  have hfirstStep : Step 0 (create 0 span 1 none : Window Unit) (.visit ()) _ _ := .visit ()
  rw [hfirst] at hfirstStep
  have hsecondStep :
      Step late ((create 0 span 1 none : Window Unit).visit 0 ()).1 (.visit ()) _ _ := .visit ()
  rw [hsecond] at hsecondStep
  exact ⟨_, .cons hfirstStep (.cons hsecondStep (.nil _))⟩

theorem not_enforced {span : Duration} (hlong : 2 ^ 63 ≤ span.toNanos)
    (h : span.signedNanos < 2 ^ 62) : ¬ Enforced span := by
  intro henforced
  obtain ⟨late, hlate⟩ : ∃ late : Nat, late = (span.signedNanos + 1).toNat := ⟨_, rfl⟩
  have hpast : span.signedNanos < late := by omega
  have hrange : late < 2 ^ 63 ∧ late + span.signedNanos < 2 ^ 63 := by omega
  obtain ⟨w, hruns⟩ := runs_of_too_short hpast hrange hlong
  have hcount := henforced Unit 1 none _ w Nat.one_pos hruns (by simp) (by simp) ?_ () 0 late
    (by omega)
  · simp [admitted, admission?, VisitLog.between, VisitLog.instants] at hcount
  · rw [max_minSpan_of_le hlong]
    intro e he
    simp only [List.mem_cons, List.not_mem_nil, or_false] at he
    rcases he with rfl | rfl <;> constructor <;> simp only <;> omega

/--
The cap holds for the spans whose count is kept, and for those that wrap around to a count too large
for any visit to expire.  Deadlines are assumed to fit their signed word here: `Enforced` asks
nothing of the other histories.
-/
theorem enforced_iff (span : Duration) :
    Enforced span ↔ span.toNanos < 2 ^ 63 ∨ 2 ^ 62 ≤ span.signedNanos := by
  constructor
  · intro henforced
    by_contra hneither
    rw [not_or, Nat.not_lt, Int.not_le] at hneither
    exact not_enforced hneither.1 hneither.2 henforced
  · rintro (hshort | hlong)
    · exact enforced_of_lt hshort
    · by_cases hshort : span.toNanos < 2 ^ 63
      · exact enforced_of_lt hshort
      · exact enforced_of_long (Nat.not_lt.1 hshort) hlong

/-- A span of 2⁶⁴ nanoseconds counts as none at all. -/
theorem span_of_two_pow_64 :
    (create 0 ⟨18446744073, 709551616⟩ 1 none : Window Nat).history
        [(0, .visit 7), (1, .visit 7)] =
      [⟨0, .visit 7, .verdict .admitted⟩, ⟨1, .visit 7, .verdict .admitted⟩] ∧
    ¬ Enforced ⟨18446744073, 709551616⟩ := by
  constructor
  · decide +kernel
  · exact not_enforced (by decide +kernel) (by decide +kernel)

end Throttle.Window
