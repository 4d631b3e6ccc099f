import Mathlib.Data.Finset.Card
import Throttle.Limiter.Pool
import Throttle.Proofs.InFlight

/-!
# One after the other, both modes lend the same guards

Where nothing comes between reading the count and updating it, best effort and strict are the same
function of the limiter.  A pool in either mode then answers as a lender who has no count at all and
only knows which guards are out.  The invariant behind it is that the word of the limiter is the
number of guards held, which are distinct because a number is never issued twice; with it a step of
the pool is a step of the lender, and so is a run, by induction on the commands.
-/

namespace Throttle

/-! ## Taking a unit and giving it back -/

namespace Limiter

variable {l l' : Limiter} {max : UInt64} {n : Nat}

theorem release_of_acquire (h : l.acquire? = some l') : l'.release = l := by
  obtain ⟨-, rfl⟩ := acquire?_eq_some h
  simp [release]

namespace Counts

theorem exists_acquire (h : l.Counts max n) (hroom : n < max.toNat) :
    ∃ l', l.acquire? = some l' ∧ l'.Counts max (n + 1) := by
  have hacquire := l.acquire?_eq
  rw [if_pos (h.lt_iff.2 hroom)] at hacquire
  exact ⟨_, hacquire, h.acquire hacquire⟩

theorem acquire?_eq_none (h : l.Counts max n) (hfull : ¬ n < max.toNat) : l.acquire? = none := by
  rw [l.acquire?_eq, if_neg (mt h.lt_iff.1 hfull)]

/-- As many units as there are guards in the list go back one after the other. -/
theorem release_foldl {guards : List Nat} (h : l.Counts max (guards.length + n)) :
    (guards.foldl (fun l _ => l.release) l).Counts max n := by
  rw [List.foldl_const]
  exact h.release_iterate

end Counts

end Limiter

/-! ## A lender without a count -/

namespace GuardPool

/-- The guards that are out, and the number of the next one. -/
structure Loans where
  out : Finset Nat
  next : Nat
  deriving DecidableEq

namespace Loans

def start : Loans := ⟨∅, 0⟩

/-- A lender of `max` guards, who goes by the guards that are out. -/
def step (max : Nat) (s : Loans) : Command → Loans × Answer
  | .acquire =>
      if s.out.card < max then (⟨insert s.next s.out, s.next + 1⟩, .guard (some s.next))
      else (s, .guard none)
  | .probe => (s, .success (s.out.card < max))
  | .release id => ({ s with out := s.out.erase id }, .success (id ∈ s.out))
  | .releaseAll => ({ s with out := ∅ }, .count s.out.card)

def run (max : Nat) (s : Loans) : List Command → Loans × List Answer
  | [] => (s, [])
  | c :: rest =>
      let (s, answer) := s.step max c
      let (s, answers) := s.run max rest
      (s, answer :: answers)

end Loans

variable {p : GuardPool} {max : UInt64} {s : Loans}

/-- A pool whose guards are the ones that are out, and whose limiter counts them. -/
structure Lends (p : GuardPool) (max : UInt64) (s : Loans) : Prop where
  counts : p.limiter.Counts max p.held.length
  nodup : p.held.Nodup
  out : s.out = p.held.toFinset
  next : s.next = p.issued
  issued : ∀ id ∈ p.held, id < p.issued

theorem lends_create (max : UInt64) (mode : LimiterMode) : (create max mode).Lends max .start :=
  ⟨Limiter.counts_create max mode, List.nodup_nil, rfl, rfl, by simp [create]⟩

/-- The pool answers a command as the lender does, and lends what the lender does after it. -/
def Matches (p : GuardPool) (max : UInt64) (s : Loans) (c : Command) : Prop :=
  (p.step c).2 = (s.step max.toNat c).2 ∧ (p.step c).1.Lends max (s.step max.toNat c).1

namespace Lends

theorem card_out (h : p.Lends max s) : s.out.card = p.held.length := by
  rw [h.out, List.toFinset_card_of_nodup h.nodup]

theorem mem_out (h : p.Lends max s) {id : Nat} : id ∈ s.out ↔ id ∈ p.held := by
  rw [h.out, List.mem_toFinset]

/-- One more guard, under a number that no guard out can have. -/
theorem issue (h : p.Lends max s) {limiter : Limiter}
    (hcounts : limiter.Counts max (p.held.length + 1)) :
    Lends ⟨limiter, p.held ++ [p.issued], p.issued + 1⟩ max
      ⟨insert s.next s.out, s.next + 1⟩ := by
  have hfresh : p.issued ∉ p.held := fun hmem => Nat.lt_irrefl _ (h.issued _ hmem)
  refine ⟨?_, ?_, ?_, congrArg (· + 1) h.next, ?_⟩
  · simpa using hcounts
  · simpa [List.concat_eq_append] using h.nodup.concat hfresh
  · rw [h.out, h.next, List.toFinset_append, Finset.union_comm]
    rfl
  · rw [List.forall_mem_append, List.forall_mem_singleton]
    exact ⟨fun id hid => Nat.lt_succ_of_lt (h.issued id hid), Nat.lt_succ_self _⟩

theorem acquire (h : p.Lends max s) : p.Matches max s .acquire := by
  by_cases hroom : p.held.length < max.toNat
  · obtain ⟨limiter, hacquire, hcounts⟩ := h.counts.exists_acquire hroom
    simp only [Matches, GuardPool.step, GuardPool.acquire, hacquire, Loans.step, h.card_out,
      if_pos hroom]
    exact ⟨by rw [h.next], h.issue hcounts⟩
  · simp only [Matches, GuardPool.step, GuardPool.acquire, h.counts.acquire?_eq_none hroom,
      Loans.step, h.card_out, if_neg hroom, true_and]
    exact h

theorem exists_guard_iff (h : p.Lends max s) :
    (∃ id, (p.step .acquire).2 = .guard (some id)) ↔ s.out.card < max.toNat := by
  rw [h.acquire.1, Loans.step]
  split
  next hroom => simp [hroom]
  next hfull => simp [hfull]

theorem probe (h : p.Lends max s) : p.Matches max s .probe := by
  by_cases hroom : p.held.length < max.toNat
  · obtain ⟨limiter, hacquire, -⟩ := h.counts.exists_acquire hroom
    simp only [Matches, GuardPool.step, GuardPool.probe, hacquire,
      Limiter.release_of_acquire hacquire, Loans.step, h.card_out, hroom, decide_true, true_and]
    exact h
  · simp only [Matches, GuardPool.step, GuardPool.probe, h.counts.acquire?_eq_none hroom,
      Loans.step, h.card_out, hroom, decide_false, true_and]
    exact h

theorem release (h : p.Lends max s) (id : Nat) : p.Matches max s (.release id) := by
  by_cases hid : id ∈ p.held
  · have hcounts := h.counts
    rw [← List.length_erase_add_one hid] at hcounts
    have hout : s.out.erase id = (p.held.erase id).toFinset := by
      ext id'
      rw [Finset.mem_erase, List.mem_toFinset, h.nodup.mem_erase_iff, h.mem_out]
    simp only [Matches, GuardPool.step, GuardPool.release, Loans.step, h.mem_out, hid, if_true]
    exact ⟨rfl, hcounts.release, h.nodup.erase id, hout, h.next,
      fun id' hid' => h.issued id' (List.mem_of_mem_erase hid')⟩
  · have hout : s.out.erase id = s.out := Finset.erase_eq_of_notMem (mt h.mem_out.1 hid)
    simp only [Matches, GuardPool.step, GuardPool.release, Loans.step, h.mem_out, hid, hout,
      if_false]
    exact ⟨rfl, h⟩

theorem releaseAll (h : p.Lends max s) : p.Matches max s .releaseAll :=
  ⟨congrArg _ h.card_out.symm, Limiter.Counts.release_foldl h.counts, List.nodup_nil, rfl, h.next,
    fun _ hid => absurd hid List.not_mem_nil⟩

theorem step (h : p.Lends max s) (c : Command) : p.Matches max s c := by
  cases c with
  | acquire => exact h.acquire
  | probe => exact h.probe
  | release id => exact h.release id
  | releaseAll => exact h.releaseAll

theorem run (h : p.Lends max s) (commands : List Command) :
    (p.run commands).2 = (s.run max.toNat commands).2 ∧
      (p.run commands).1.Lends max (s.run max.toNat commands).1 := by
  induction commands generalizing p s with
  | nil => exact ⟨rfl, h⟩
  | cons c rest ih =>
      obtain ⟨hanswer, hnext⟩ := h.step c
      obtain ⟨hanswers, hend⟩ := ih hnext
      refine ⟨?_, hend⟩
      simp only [GuardPool.run, Loans.run, hanswer, hanswers]

end Lends

/--
Whatever is done with a pool, its answers do not show its mode: they are those of a lender of `max`
guards.  A guard is to be had exactly if fewer than `max` are out, and the word of the limiter is
the number of guards out, at most `max`.  It goes up by one where a guard is taken, and down by one
with each guard that is given back, also when all go back in a row, so it never wraps around.
-/
theorem modes_lend_alike (max : UInt64) (commands : List Command) :
    ((create max .bestEffort).run commands).2 = ((create max .strict).run commands).2 ∧
    ∀ mode,
      let p := ((create max mode).run commands).1
      let s := (Loans.start.run max.toNat commands).1
      ((create max mode).run commands).2 = (Loans.start.run max.toNat commands).2 ∧
      (∀ id, id ∈ p.held ↔ id ∈ s.out) ∧ p.held.length = s.out.card ∧
      p.limiter.inFlight.toNat = s.out.card ∧ s.out.card ≤ max.toNat ∧
      ((∃ id, (p.step .acquire).2 = .guard (some id)) ↔ s.out.card < max.toNat) ∧
      (∀ limiter, p.limiter.acquire? = some limiter →
        limiter.inFlight.toNat = s.out.card + 1 ∧ limiter.release = p.limiter) ∧
      ∀ before id after, p.held = before ++ id :: after →
        let limiter := before.foldl (fun l _ => l.release) p.limiter
        limiter.inFlight.toNat = after.length + 1 ∧
          limiter.release.inFlight.toNat = after.length := by
  have hrun := fun mode => (lends_create max mode).run commands
  refine ⟨(hrun .bestEffort).1.trans (hrun .strict).1.symm, ?_⟩
  intro mode p s
  have hlends : p.Lends max s := (hrun mode).2
  have hcounts : p.limiter.Counts max s.out.card := hlends.card_out ▸ hlends.counts
  refine ⟨(hrun mode).1, fun id => hlends.mem_out.symm, hlends.card_out.symm, hcounts.count,
    hcounts.within, hlends.exists_guard_iff, ?_, ?_⟩
  · intro limiter hacquire
    exact ⟨(hcounts.acquire hacquire).count, Limiter.release_of_acquire hacquire⟩
  · intro before id after hheld limiter
    have hleft := hlends.counts
    rw [hheld, List.length_append, List.length_cons] at hleft
    exact ⟨hleft.release_foldl.count, hleft.release_foldl.release.count⟩

/-- A guard from the middle is back, and back only once; there is room for one more. -/
theorem two_of_three_guards_out :
    let commands : List Command := [.acquire, .acquire, .acquire, .acquire, .release 1,
      .release 1, .probe]
    let p := ((create 3 .bestEffort).run commands).1
    ((create 3 .strict).run commands).2 = [.guard (some 0), .guard (some 1), .guard (some 2),
      .guard none, .success true, .success false, .success true] ∧
      ((create 3 .bestEffort).run commands).2 = ((create 3 .strict).run commands).2 ∧
      p.held = [0, 2] ∧
      (∃ limiter, p.limiter.acquire? = some limiter ∧ limiter.inFlight.toNat = 3 ∧
        limiter.release = p.limiter) ∧
      p.limiter.release.inFlight.toNat = 1 ∧ p.limiter.release.release.inFlight.toNat = 0 := by
  intro commands p
  have hheld : ((create 3 .bestEffort).run commands).1.held = [0, 2] := by decide +kernel
  have hacquire : p.limiter.acquire? = some ⟨3, 3, .bestEffort⟩ := by decide +kernel
  obtain ⟨hsame, hmodes⟩ := modes_lend_alike 3 commands
  obtain ⟨-, -, hlength, -, -, -, htaken, hreturned⟩ := hmodes .bestEffort
  obtain ⟨hcount, hback⟩ := htaken _ hacquire
  rw [← hlength, hheld] at hcount
  exact ⟨by decide +kernel, hsame, hheld, ⟨_, hacquire, hcount, hback⟩,
    (hreturned [] 0 [2] hheld).2, (hreturned [0] 2 [] hheld).2⟩

end GuardPool

end Throttle
