import Throttle.Proofs.Shedding

/-!
# What a response delivers

Under its wrappings a response is either the service's own or a rejection, and a poll answers with
what lies there, however deep.  Of all that happens to a gateway only two things reach it: a new
outcome changes what the service says, and a poll takes the error of a rejection.  The answer to a
poll is therefore read off the commands before it, without a look at the stack.
-/

namespace Throttle.Middleware

/-! ## Under the wrappings -/

namespace Response

variable {id : Nat}

/-- What lies under the wrappings of a response. -/
def core : Response → Response
  | .inner outcome => .inner outcome
  | .passed _ response => response.core
  | .rejected error => .rejected error

/-- The answer to the next poll. -/
def answer : Response → Poll
  | .inner outcome => outcome
  | .passed _ response => response.answer
  | .rejected error => .failed (.limit (error.getD polledAgain))

/-- What a command makes of a response without wrappings that stands at `id`. -/
def next (id : Nat) : Response → Command → Response
  | .inner outcome, .resolve i outcome' => .inner (if i = id then outcome' else outcome)
  | .rejected error, .poll i => .rejected (if i = id then none else error)
  | response, _ => response

theorem core_enclose (layers : List Layer) (response : Response) :
    (enclose layers response).core = response.core := by
  induction layers with
  | nil => rfl
  | cons layer layers ih => exact ih

theorem answer_core (response : Response) : response.core.answer = response.answer := by
  induction response with
  | inner outcome => rfl
  | rejected error => rfl
  | passed guarded response ih => exact ih

theorem answer_of_poll (l : Limiter) (response : Response) :
    (response.poll l).1 = response.answer := by
  induction response with
  | inner outcome => rfl
  | rejected error => rfl
  | passed guarded response ih =>
      rcases hpoll : response.poll l with ⟨p, response', l'⟩
      simp only [hpoll] at ih
      simp only [poll, hpoll]
      split <;> exact ih

theorem core_poll (l : Limiter) (response : Response) :
    (response.poll l).2.1.core = response.core.next id (.poll id) := by
  induction response with
  | inner outcome => rfl
  | rejected error => simp [core, poll, next]
  | passed guarded response ih =>
      rcases hpoll : response.poll l with ⟨p, response', l'⟩
      simp only [hpoll] at ih
      simp only [poll, hpoll]
      split <;> exact ih

theorem core_resolve (outcome : Poll) (response : Response) :
    (response.resolve outcome).core = response.core.next id (.resolve id outcome) := by
  induction response with
  | inner outcome' => simp [core, resolve, next]
  | rejected error => rfl
  | passed guarded response ih => exact ih

end Response

/-- The response that a command is about. -/
def Command.id? : Command → Option Nat
  | .poll id | .resolve id _ | .drop id => some id
  | _ => none

theorem Response.next_of_ne {id : Nat} {c : Command} (hc : c.id? ≠ some id) (core : Response) :
    core.next id c = core := by
  cases core <;> cases c <;> simp_all [next, Command.id?]

/-- What the service says of a call after commands, if it said `outcome` at first. -/
def lastOutcome (id : Nat) (outcome : Poll) : List Command → Poll
  | [] => outcome
  | .resolve i outcome' :: rest => lastOutcome id (if i = id then outcome' else outcome) rest
  | _ :: rest => lastOutcome id outcome rest

theorem foldl_next_inner (id : Nat) (outcome : Poll) (commands : List Command) :
    commands.foldl (Response.next id) (.inner outcome) =
      .inner (lastOutcome id outcome commands) := by
  induction commands generalizing outcome with
  | nil => rfl
  | cons c rest ih => cases c <;> exact ih _

theorem foldl_next_rejected (id : Nat) (error : Option LimitError) (commands : List Command) :
    commands.foldl (Response.next id) (.rejected error) =
      .rejected (if .poll id ∈ commands then none else error) := by
  induction commands generalizing error with
  | nil => rfl
  | cons c rest ih =>
      cases c with
      | poll i =>
          by_cases hi : i = id
          · simp [Response.next, ih, hi]
          · simp [Response.next, ih, hi, Ne.symm hi]
      | _ => simp [Response.next, ih]

/-! ## The response at its place -/

namespace Gateway

variable {g : Gateway} {clock id : Nat} {core : Response} {c : Command}
  {commands : List (Nat × Command)}

/-- The response at `id` is there, with `core` under its wrappings. -/
def Holds (g : Gateway) (id : Nat) (core : Response) : Prop :=
  ∃ response, g.response? id = some response ∧ response.core = core

theorem responses_step (g : Gateway) (clock : Nat) {i : Nat} (hc : c.id? = some i) :
    (g.step clock c).1.responses = g.responses ∨
      ∃ r, (g.step clock c).1.responses = g.responses.set i r := by
  cases c with
  | poll j | resolve j outcome | drop j =>
      obtain rfl := Option.some.inj hc
      cases hresponse : g.response? j with
      | none => exact .inl (by simp only [step, hresponse])
      | some response => exact .inr ⟨_, by simp only [step, hresponse]; rfl⟩
  | _ => contradiction

theorem response?_step_of_ne (hid : id < g.responses.length) (hc : c.id? ≠ some id) :
    (g.step clock c).1.response? id = g.response? id := by
  unfold response?
  cases habout : c.id? with
  | some i =>
      have hne : i ≠ id := fun heq => hc (habout.trans (congrArg some heq))
      rcases g.responses_step clock habout with heq | ⟨r, heq⟩
      · rw [heq]
      · rw [heq, List.getElem?_set_ne hne]
  | none =>
      cases c with
      | call service request outcome => simp only [step, List.getElem?_append_left hid]
      | poll i | resolve i outcome | drop i => contradiction
      | _ => rfl

theorem Holds.step (h : g.Holds id core) (hdrop : c ≠ .drop id) :
    (g.step clock c).1.Holds id (core.next id c) := by
  obtain ⟨response, hresponse, rfl⟩ := h
  have hid := lt_of_response? hresponse
  by_cases hc : c.id? = some id
  · cases c with
    | poll i =>
        obtain rfl : i = id := Option.some.inj hc
        refine ⟨(response.poll g.shared.limiter).2.1, ?_, Response.core_poll _ response⟩
        simp only [Gateway.step, hresponse]
        rw [response?_setResponse, Function.update_self]
        exact hid
    | resolve i outcome =>
        obtain rfl : i = id := Option.some.inj hc
        refine ⟨response.resolve outcome, ?_, Response.core_resolve outcome response⟩
        simp only [Gateway.step, hresponse]
        rw [response?_setResponse hid, Function.update_self]
    | drop i =>
        obtain rfl : i = id := Option.some.inj hc
        contradiction
    | _ => contradiction
  · refine ⟨response, ?_, (Response.next_of_ne hc _).symm⟩
    rw [response?_step_of_ne hid hc, hresponse]

theorem Holds.run (h : g.Holds id core) (hdrop : .drop id ∉ commands.map Prod.snd) :
    (g.run commands).1.Holds id ((commands.map Prod.snd).foldl (Response.next id) core) := by
  induction commands generalizing g core with
  | nil => exact h
  | cons entry rest ih =>
      obtain ⟨clock, c⟩ := entry
      rw [List.map_cons, List.mem_cons, not_or] at hdrop
      exact ih (h.step (Ne.symm hdrop.1)) hdrop.2

theorem Holds.answer_poll (h : g.Holds id core) (clock : Nat) :
    (g.step clock (.poll id)).2 = .result core.answer := by
  obtain ⟨response, hresponse, rfl⟩ := h
  simp only [Gateway.step, hresponse, Response.answer_of_poll, Response.answer_core]

theorem answer_run (g : Gateway) (before after : List (Nat × Command)) (clock : Nat)
    (c : Command) :
    (g.run (before ++ (clock, c) :: after)).2[before.length]? =
      some ((g.run before).1.step clock c).2 := by
  induction before generalizing g with
  | nil => rfl
  | cons entry rest ih => exact ih (g.step entry.1 entry.2).1

theorem Holds.answer_run (h : g.Holds id core) (before after : List (Nat × Command)) (clock : Nat)
    (hdrop : .drop id ∉ before.map Prod.snd) :
    (g.run (before ++ (clock, .poll id) :: after)).2[before.length]? =
      some (.result ((before.map Prod.snd).foldl (Response.next id) core).answer) := by
  rw [Gateway.answer_run, (h.run hdrop).answer_poll]

/-! ## The response of a call -/

theorem holds_call (g : Gateway) (clock service : Nat) (request : Request) (outcome : Poll) :
    (g.step clock (.call service request outcome)).1.Holds g.responses.length
      (g.shared.call clock request outcome (g.stack service)).1.core := by
  refine ⟨_, ?_, rfl⟩
  have hadd := congrFun (g.response?_addResponse
    (g.shared.call clock request outcome (g.stack service)).1) g.responses.length
  rwa [Function.update_self] at hadd

/--
The response of a call stands behind the responses there are, and a call that no layer refuses
reaches the service.  Whatever happens until the response is dropped, every poll of it is answered:
if the call reached the service, with what the service says at that moment, and if a layer refused
the call, at first with the error of that layer and ever after with the error of a response that has
been completed.
-/
theorem polls_of_call (g : Gateway) (clock service : Nat) (request : Request) (outcome : Poll) :
    let called := g.step clock (.call service request outcome)
    let id := g.responses.length
    called.2 = .number id ∧
    (called.1.shared.hits = g.shared.hits + 1 ↔
      ¬ ∃ outer e s', Refused clock request g.shared (g.stack service) outer e s') ∧
    ∀ before after t, .drop id ∉ before.map Prod.snd →
      ∃ p, (called.1.run (before ++ (t, .poll id) :: after)).2[before.length]? =
          some (.result p) ∧
        (called.1.shared.hits = g.shared.hits + 1 →
          p = lastOutcome id outcome (before.map Prod.snd)) ∧
        ∀ outer e s', Refused clock request g.shared (g.stack service) outer e s' →
          p = .failed (.limit (if .poll id ∈ before.map Prod.snd
            then .inner "response polled after completion" else e)) := by
  intro called id
  have hreached : called.1.shared.hits = g.shared.hits + 1 ↔ _ := hits_call_iff
  refine ⟨rfl, hreached, ?_⟩
  intro before after t hdrop
  have hholds : called.1.Holds id _ := g.holds_call clock service request outcome
  refine ⟨_, hholds.answer_run before after t hdrop, ?_, ?_⟩
  · intro hhits
    obtain ⟨s', henters⟩ := (enters_or_refused clock request g.shared _).resolve_right
      (hreached.1 hhits)
    rw [henters.call_eq, Response.core_enclose, Response.core, foldl_next_inner]
    rfl
  · intro outer e s' hrefused
    rw [hrefused.call_eq, Response.core_enclose, Response.core, foldl_next_rejected]
    split <;> rfl

/-- A served and a shed call under four layers, polled to completion and again. -/
theorem polls_under_four_layers :
    let layers : List Layer := [.perKey 1 (fun _ => none) (some (.uint 7)), .global true,
      .perKey 0 (Extractor.header "x-key") (some (.text "")), .global false]
    let g := ofRules (.create 2 .strict)
      (fun i => ⟨[.create 0 (.ofSecs 1) (i + 2) none], .independent⟩) layers
    let call := .call 0 .anonymous .pending
    let served := (g.step 0 call).1
    let shed := (served.step 1 call).1
    let resolved := [(2, .poll 0), (3, .resolve 0 (.ok "a")), (3, .resolve 1 (.ok "b"))]
    (served.run (resolved ++ [(4, .poll 0)])).2[3]? = some (.result (.ok "a")) ∧
      (shed.run (resolved ++ [(4, .poll 1), (5, .poll 1)])).2[3]? =
        some (.result (.failed (.limit .overloaded))) ∧
      (shed.run ((resolved ++ [(4, .poll 1)]) ++ [(5, .poll 1)])).2[4]? =
        some (.result (.failed (.limit (.inner "response polled after completion")))) := by
  intro layers g call served shed resolved
  have hrefused : ∃ s', Refused 1 .anonymous served.shared (served.stack 0) (layers.take 1)
      .overloaded s' :=
    ⟨_, .at rfl (.cons (.perKey rfl rfl) (.nil _)) (.overloaded rfl)⟩
  obtain ⟨s', hrefused⟩ := hrefused
  obtain ⟨-, -, hserved⟩ := polls_of_call g 0 0 .anonymous .pending
  obtain ⟨-, -, hshed⟩ := polls_of_call served 1 0 .anonymous .pending
  obtain ⟨p, hp, hreached, -⟩ := hserved resolved [] 4 (by decide)
  obtain ⟨p₁, hp₁, -, hfirst⟩ := hshed resolved [(5, .poll 1)] 4 (by decide)
  obtain ⟨p₂, hp₂, -, hagain⟩ := hshed (resolved ++ [(4, .poll 1)]) [] 5 (by decide)
  obtain rfl := hreached (by decide)
  obtain rfl := hfirst _ _ _ hrefused
  obtain rfl := hagain _ _ _ hrefused
  exact ⟨hp, hp₁, hp₂⟩

end Gateway

end Throttle.Middleware
