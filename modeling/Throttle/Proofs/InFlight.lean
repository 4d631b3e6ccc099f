import Mathlib.Algebra.Order.Ring.Nat
import Mathlib.Logic.Function.Iterate
import Throttle.Proofs.Passage

/-!
# Every unit in flight is owed by an open response

Accounts are kept from the outside: a call opens one with the guards that its global layers took,
and the first completed poll, or the drop of the response, settles it.  The response at the same
place holds exactly as many guards as its account still owes, however deep they are nested, so the
count of the limiter is the sum of what is owed, and a guard goes back only where an account is
settled.
-/

namespace Throttle

theorem sum_set {l : List Nat} {i a : Nat} (h : l[i]? = some a) (b : Nat) :
    (l.set i b).sum + a = l.sum + b := by
  induction l generalizing i with
  | nil => simp at h
  | cons x rest ih =>
      cases i with
      | zero =>
          obtain rfl : x = a := by simpa using h
          simp only [List.set_cons_zero, List.sum_cons]
          omega
      | succ i =>
          have hrest := ih (by simpa using h)
          simp only [List.set_cons_succ, List.sum_cons]
          omega

/-! ## The count of a limiter -/

namespace Limiter

variable {l l' : Limiter} {max : UInt64} {n m : Nat}

/-- The mode has no say in whether there is a unit to be had, nor in what is left of the limiter. -/
theorem acquire?_eq (l : Limiter) : l.acquire? =
    if l.inFlight < l.max then some { l with inFlight := l.inFlight + 1 } else none := by
  unfold acquire? incrementBelow
  by_cases hlt : l.inFlight < l.max
  · have hle : ¬ l.inFlight ≥ l.max := UInt64.not_le.2 hlt
    cases l.mode <;> simp [hlt, hle]
  · have hle : l.inFlight ≥ l.max := UInt64.not_lt.1 hlt
    cases l.mode <;> simp [hlt, hle]

theorem acquire?_eq_some (h : l.acquire? = some l') :
    l.inFlight < l.max ∧ l' = { l with inFlight := l.inFlight + 1 } := by
  rw [acquire?_eq] at h
  split at h
  next hlt => exact ⟨hlt, (Option.some.inj h).symm⟩
  next => contradiction

/-- A limiter under the cap `max` that counts `n` units. -/
structure Counts (l : Limiter) (max : UInt64) (n : Nat) : Prop where
  cap : l.max = max
  count : l.inFlight.toNat = n
  within : n ≤ max.toNat

theorem counts_create (max : UInt64) (mode : LimiterMode) : (create max mode).Counts max 0 :=
  ⟨rfl, rfl, Nat.zero_le _⟩

theorem Counts.lt_iff (h : l.Counts max n) : l.inFlight < l.max ↔ n < max.toNat := by
  rw [UInt64.lt_iff_toNat_lt, h.count, h.cap]

theorem Counts.acquire (h : l.Counts max n) (hacquire : l.acquire? = some l') :
    l'.Counts max (n + 1) := by
  obtain ⟨hlt, rfl⟩ := acquire?_eq_some hacquire
  have hroom := h.lt_iff.1 hlt
  have hword := max.toNat_lt
  refine ⟨h.cap, ?_, hroom⟩
  change (l.inFlight + 1).toNat = n + 1
  rw [UInt64.toNat_add, UInt64.toNat_one, h.count, Nat.mod_eq_of_lt (by omega)]

theorem Counts.release (h : l.Counts max (n + 1)) : l.release.Counts max n := by
  have hcount := h.count
  have hwithin := h.within
  refine ⟨h.cap, ?_, by omega⟩
  change (l.inFlight - 1).toNat = n
  have hle : 1 ≤ l.inFlight := by
    rw [UInt64.le_iff_toNat_le, hcount, UInt64.toNat_one]
    omega
  rw [UInt64.toNat_sub_of_le _ _ hle, hcount, UInt64.toNat_one, Nat.add_sub_cancel]

theorem Counts.release_iterate (h : l.Counts max (m + n)) :
    (Limiter.release^[m] l).Counts max n := by
  induction m generalizing l with
  | zero => simpa using h
  | succ m ih =>
      rw [Nat.add_right_comm] at h
      exact ih h.release

end Limiter

namespace Middleware

/-! ## The guards of a response -/

namespace Response

variable {response : Response} {outcome : Poll}

theorem drop_eq (l : Limiter) (response : Response) :
    response.drop l = Limiter.release^[response.guards] l := by
  induction response generalizing l with
  | inner outcome => rfl
  | rejected error => rfl
  | passed guarded response ih =>
      rw [drop, ih]
      cases guarded with
      | false => simp [guards]
      | true =>
          rw [guards, Bool.toNat_true, Nat.add_comm]
          rfl

/-- Guards that a poll gives back: all of them once there is an answer, and none before. -/
theorem limiter_poll (l : Limiter) (response : Response) :
    (response.poll l).2.2 =
      Limiter.release^[if (response.poll l).1.isReady then response.guards else 0] l := by
  induction response with
  | inner outcome => cases outcome <;> rfl
  | rejected error => rfl
  | passed guarded response ih =>
      rcases hpoll : response.poll l with ⟨p, response', l'⟩
      simp only [hpoll] at ih
      simp only [poll, hpoll, guards]
      cases hready : p.isReady with
      | false => simpa [hready] using ih
      | true =>
          cases guarded with
          | false => simpa [hready] using ih
          | true =>
              simp only [hready, if_true] at ih
              simp only [Bool.and_self, if_true, hready, Bool.toNat_true, Nat.add_comm 1]
              rw [Function.iterate_succ_apply', ih]

theorem guards_poll (l : Limiter) (response : Response) :
    (response.poll l).2.1.guards =
      if (response.poll l).1.isReady then 0 else response.guards := by
  induction response with
  | inner outcome => cases outcome <;> rfl
  | rejected error => rfl
  | passed guarded response ih =>
      rcases hpoll : response.poll l with ⟨p, response', l'⟩
      simp only [hpoll] at ih
      simp only [poll, hpoll, guards]
      cases hready : p.isReady <;> cases guarded <;> simp_all [guards]

theorem drop_poll (l : Limiter) (response : Response) :
    (response.poll l).2.1.drop (response.poll l).2.2 = Limiter.release^[response.guards] l := by
  rw [drop_eq, limiter_poll, guards_poll]
  split
  · rfl
  · rfl

theorem guards_resolve (outcome : Poll) (response : Response) :
    (response.resolve outcome).guards = response.guards := by
  induction response with
  | inner _ => rfl
  | rejected _ => rfl
  | passed guarded response ih => rw [resolve, guards, guards, ih]

end Response

/-! ## The guards of a call -/

/-- The number of global layers that a call passes, each of which takes a guard. -/
def guardsTaken (clock : Nat) (r : Request) : List Layer → Shared → Nat
  | [], _ => 0
  | .global _ :: layers, s =>
      match s.limiter.acquire? with
      | some limiter => guardsTaken clock r layers { s with limiter } + 1
      | none => 0
  | .perKey i extract fallback :: layers, s =>
      match callKey? extract fallback r with
      | none => 0
      | some k =>
          match (s.rules i).visit clock k with
          | (rule, .admitted) => guardsTaken clock r layers (s.setRule i rule)
          | (_, .refused _) => 0

theorem Shared.guards_call (clock : Nat) (r : Request) (outcome : Poll) (layers : List Layer)
    (s : Shared) :
    (call clock r outcome layers s).1.guards = guardsTaken clock r layers s := by
  fun_induction guardsTaken clock r layers s <;> simp_all [call, Response.guards, Nat.add_comm]

theorem Shared.counts_call {max : UInt64} {n : Nat} (clock : Nat) (r : Request) (outcome : Poll)
    (layers : List Layer) {s : Shared} (h : s.limiter.Counts max n) :
    (call clock r outcome layers s).2.limiter.Counts max
      (n + guardsTaken clock r layers s) := by
  fun_induction guardsTaken clock r layers s generalizing n with
  | case1 s => exact h
  | case2 countsShed layers s limiter hacquire ih =>
      rw [← Nat.add_assoc, Nat.add_right_comm]
      simpa only [call, hacquire] using ih (h.acquire hacquire)
  | case3 countsShed layers s hacquire => cases countsShed <;> simpa [call, hacquire] using h
  | case4 i extract fallback layers s hkey => simpa [call, hkey] using h
  | case5 i extract fallback layers s k hkey rule hvisit ih =>
      simpa only [call, hkey, hvisit] using ih h
  | case6 i extract fallback layers s k hkey rule d hvisit =>
      simpa [call, hkey, hvisit, setRule] using h

/-! ## Accounts -/

/-- The guards that a call took, and whether its response has been completed or dropped. -/
structure Account where
  taken : Nat
  settled : Bool
  deriving DecidableEq, Repr

namespace Account

def settle (a : Account) : Account := { a with settled := true }

def owed (a : Account) : Nat := if a.settled then 0 else a.taken

def total (accounts : List Account) : Nat := (accounts.map owed).sum

variable {accounts : List Account}

theorem map_owed_settle (accounts : List Account) (i : Nat) :
    (accounts.modify i settle).map owed = (accounts.map owed).set i 0 := by
  induction accounts generalizing i with
  | nil => simp
  | cons a rest ih =>
      cases i with
      | zero => rfl
      | succ i => exact congrArg (List.cons _) (ih i)

theorem total_of_settled (h : ∀ a ∈ accounts, a.settled = true) : total accounts = 0 := by
  rw [total, List.sum_eq_zero_iff_forall_eq_nat]
  simp +contextual [owed, h]

end Account

/-- Guards that a response holds, if it is still there. -/
def held : Option Response → Nat
  | none => 0
  | some response => response.guards

namespace Gateway

open Account

/-- The guards that the layers take for a command. -/
def taken (g : Gateway) (clock : Nat) : Command → Nat
  | .call service request _ | .send service request _ =>
      guardsTaken clock request (g.stack service) g.shared
  | _ => 0

/-- The limiter once these guards are taken. -/
def claimed (g : Gateway) (clock : Nat) : Command → Limiter
  | .call service request outcome | .send service request outcome =>
      (g.shared.call clock request outcome (g.stack service)).2.limiter
  | _ => g.shared.limiter

/-- The accounts after a command and its answer. -/
def book (g : Gateway) (clock : Nat) (accounts : List Account) : Command → Answer → List Account
  | .call service request outcome, _ =>
      accounts ++ [⟨g.taken clock (.call service request outcome), false⟩]
  | .poll id, .result p => if p.isReady then accounts.modify id settle else accounts
  | .drop id, .success true => accounts.modify id settle
  | _, _ => accounts

/-- The accounts after commands, each given with the clock reading at which it arrives. -/
def accounts (g : Gateway) (booked : List Account) : List (Nat × Command) → List Account
  | [] => booked
  | (clock, c) :: rest =>
      (g.step clock c).1.accounts (g.book clock booked c (g.step clock c).2) rest

/-- Every response holds what its account owes, and the limiter counts the sum. -/
structure Balanced (g : Gateway) (max : UInt64) (booked : List Account) : Prop where
  held : g.responses.map held = booked.map owed
  counts : g.shared.limiter.Counts max (total booked)

/--
After a command the responses hold what is owed, and the guards taken for it or owed before are owed
now or have been given back.
-/
def Settles (g : Gateway) (clock : Nat) (c : Command) (booked : List Account) : Prop :=
  (g.step clock c).1.responses.map Middleware.held =
      (g.book clock booked c (g.step clock c).2).map owed ∧
    ∃ released, released + total (g.book clock booked c (g.step clock c).2) =
        total booked + g.taken clock c ∧
      (g.step clock c).1.shared.limiter = Limiter.release^[released] (g.claimed clock c)

variable {g : Gateway} {max : UInt64} {booked : List Account}

theorem balanced_ofRules (max : UInt64) (mode : LimiterMode) (rules : Nat → Rule Key)
    (layers : List Layer) : (ofRules (.create max mode) rules layers).Balanced max [] :=
  ⟨rfl, Limiter.counts_create max mode⟩

theorem counts_claimed (clock : Nat) (c : Command) {n : Nat} (h : g.shared.limiter.Counts max n) :
    (g.claimed clock c).Counts max (n + g.taken clock c) := by
  cases c with
  | call service request outcome => exact Shared.counts_call clock request outcome _ h
  | send service request outcome => exact Shared.counts_call clock request outcome _ h
  | _ => exact h

namespace Balanced

variable {id : Nat} {response : Response}

theorem owed_of_response (h : g.Balanced max booked) (hresponse : g.response? id = some response) :
    (booked.map owed)[id]? = some response.guards := by
  rw [← h.held, List.getElem?_map, Option.join_eq_some_iff.1 hresponse]
  rfl

/-- Other guards in the place of those of one response. -/
theorem replace (h : g.Balanced max booked) (hresponse : g.response? id = some response)
    (response' : Option Response) {booked' : List Account}
    (hbooked : booked'.map owed = (booked.map owed).set id (Middleware.held response')) :
    (g.responses.set id response').map Middleware.held = booked'.map owed ∧
      total booked' + response.guards = total booked + Middleware.held response' := by
  rw [List.map_set, h.held, hbooked, total, hbooked]
  exact ⟨rfl, sum_set (h.owed_of_response hresponse) _⟩

theorem set_owed (h : g.Balanced max booked) (hresponse : g.response? id = some response) :
    (booked.map owed).set id response.guards = booked.map owed := by
  obtain ⟨hlt, heq⟩ := List.getElem?_eq_some_iff.1 (h.owed_of_response hresponse)
  rw [← heq, List.set_getElem_self]

theorem poll_settles (h : g.Balanced max booked) (clock : Nat)
    (hresponse : g.response? id = some response) : g.Settles clock (.poll id) booked := by
  have hlimiter := response.limiter_poll g.shared.limiter
  have hguards := response.guards_poll g.shared.limiter
  rcases hpoll : response.poll g.shared.limiter with ⟨p, response', limiter⟩
  simp only [hpoll] at hlimiter hguards
  unfold Settles
  simp only [step, hresponse, hpoll, book]
  cases hready : p.isReady with
  | false =>
      simp only [hready, Bool.false_eq_true, if_false] at hlimiter hguards ⊢
      have hheld := h.replace hresponse (some response')
        (by rw [Middleware.held, hguards, h.set_owed hresponse])
      exact ⟨hheld.1, 0, Nat.zero_add _, hlimiter⟩
  | true =>
      simp only [hready, if_true] at hlimiter hguards ⊢
      obtain ⟨hheld, htotal⟩ := h.replace hresponse (some response')
        (by rw [map_owed_settle, Middleware.held, hguards])
      rw [Middleware.held, hguards] at htotal
      exact ⟨hheld, response.guards, (Nat.add_comm _ _).trans htotal, hlimiter⟩

theorem resolve_settles (h : g.Balanced max booked) (clock : Nat) (outcome : Poll)
    (hresponse : g.response? id = some response) :
    g.Settles clock (.resolve id outcome) booked := by
  have hheld := h.replace hresponse (some (response.resolve outcome))
    (by rw [Middleware.held, Response.guards_resolve, h.set_owed hresponse])
  unfold Settles
  simp only [step, hresponse, book]
  exact ⟨hheld.1, 0, Nat.zero_add _, rfl⟩

theorem drop_settles (h : g.Balanced max booked) (clock : Nat)
    (hresponse : g.response? id = some response) : g.Settles clock (.drop id) booked := by
  obtain ⟨hheld, htotal⟩ := h.replace hresponse none (map_owed_settle booked id)
  unfold Settles
  simp only [step, hresponse, book]
  exact ⟨hheld, response.guards, (Nat.add_comm _ _).trans htotal,
    response.drop_eq g.shared.limiter⟩

theorem settles (h : g.Balanced max booked) (clock : Nat) (c : Command) :
    g.Settles clock c booked := by
  have hunchanged : g.responses.map Middleware.held = booked.map owed ∧ ∃ released,
      released + total booked = total booked ∧
        g.shared.limiter = Limiter.release^[released] g.shared.limiter :=
    ⟨h.held, 0, Nat.zero_add _, rfl⟩
  cases c with
  | call service request outcome =>
      refine ⟨?_, 0, ?_, rfl⟩
      · simp [step, book, h.held, Middleware.held, Shared.guards_call, owed, taken]
      · simp [book, total, owed]
  | send service request outcome =>
      refine ⟨h.held, g.taken clock (.send service request outcome), Nat.add_comm _ _, ?_⟩
      simp only [step, Response.drop_poll, Shared.guards_call]
      rfl
  | poll id =>
      cases hresponse : g.response? id with
      | some response => exact h.poll_settles clock hresponse
      | none =>
          simp only [Settles, step, hresponse]
          exact hunchanged
  | resolve id outcome =>
      cases hresponse : g.response? id with
      | some response => exact h.resolve_settles clock outcome hresponse
      | none =>
          simp only [Settles, step, hresponse]
          exact hunchanged
  | drop id =>
      cases hresponse : g.response? id with
      | some response => exact h.drop_settles clock hresponse
      | none =>
          simp only [Settles, step, hresponse]
          exact hunchanged
  | _ => exact hunchanged

theorem step (h : g.Balanced max booked) (clock : Nat) (c : Command) :
    (g.step clock c).1.Balanced max (g.book clock booked c (g.step clock c).2) := by
  obtain ⟨hheld, released, htotal, hlimiter⟩ := h.settles clock c
  have hclaimed := counts_claimed clock c h.counts
  rw [← htotal] at hclaimed
  refine ⟨hheld, ?_⟩
  rw [hlimiter]
  exact hclaimed.release_iterate

theorem run (h : g.Balanced max booked) (commands : List (Nat × Command)) :
    (g.run commands).1.Balanced max (g.accounts booked commands) := by
  induction commands generalizing g booked with
  | nil => exact h
  | cons c rest ih => exact ih (h.step c.1 c.2)

end Balanced

/--
Whichever rules the layers go by, and whatever is done with the services and their responses, the
units in flight are those that open responses owe: at most the cap, and none once every response is
settled.  Each further command gives back, out of the units in flight, exactly those that it leaves
no one to owe.
-/
theorem in_flight_is_owed (max : UInt64) (mode : LimiterMode) (rules : Nat → Rule Key)
    (layers : List Layer) (commands : List (Nat × Command)) :
    let start := ofRules (.create max mode) rules layers
    let g := (start.run commands).1
    let booked := start.accounts [] commands
    booked.length = g.responses.length ∧
    g.shared.limiter.inFlight.toNat = total booked ∧ total booked ≤ max.toNat ∧
    ((∀ a ∈ booked, a.settled = true) → g.shared.limiter.inFlight = 0) ∧
    ∀ clock c, ∃ released,
      released + total (g.book clock booked c (g.step clock c).2) =
        total booked + g.taken clock c ∧
      total booked + g.taken clock c = (g.claimed clock c).inFlight.toNat ∧
      (g.step clock c).1.shared.limiter = Limiter.release^[released] (g.claimed clock c) := by
  intro start g booked
  have hbalanced : g.Balanced max booked := (balanced_ofRules max mode rules layers).run commands
  refine ⟨?_, hbalanced.counts.count, hbalanced.counts.within, ?_, ?_⟩
  · rw [← List.length_map Account.owed, ← hbalanced.held, List.length_map]
  · intro hsettled
    rw [← UInt64.toNat_inj, hbalanced.counts.count, total_of_settled hsettled]
    rfl
  · intro clock c
    obtain ⟨-, released, htotal, hlimiter⟩ := hbalanced.settles clock c
    exact ⟨released, htotal, (counts_claimed clock c hbalanced.counts).count.symm, hlimiter⟩

/-- A completed, a refused and a shed response leave nothing in flight, polled again or dropped. -/
theorem nothing_in_flight_after_three_responses :
    let layers := [.global false, .perKey 1 Extractor.peer none,
      .perKey 0 (fun _ => none) (some (.uint 7)), .global true]
    let start := ofRules (.create 3 .strict)
      (fun i => ⟨[.create 0 (.ofSecs 1) (i + 1) none], .independent⟩) layers
    let commands := [(0, .call 0 .anonymous .pending), (0, .clone 0),
      (0, .call 1 .anonymous .pending), (0, .call 0 .anonymous .pending), (1, .poll 0),
      (1, .poll 1), (1, .poll 1), (2, .resolve 0 (.ok "")), (2, .poll 0),
      (3, .resolve 0 .pending), (3, .poll 0), (3, .drop 2)]
    start.accounts [] commands = [⟨2, true⟩, ⟨1, true⟩, ⟨0, true⟩] ∧
      (start.run commands).1.shared.limiter.inFlight = 0 := by
  intro layers start commands
  have hbooked : start.accounts [] commands = [⟨2, true⟩, ⟨1, true⟩, ⟨0, true⟩] := by
    decide +kernel
  refine ⟨hbooked, ?_⟩
  apply (in_flight_is_owed 3 .strict _ layers commands).2.2.2.1
  change ∀ a ∈ start.accounts [] commands, a.settled = true
  rw [hbooked]
  decide

end Gateway

end Middleware

end Throttle
