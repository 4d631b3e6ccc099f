import Throttle.Proofs.Protection

/-!
# Shed calls leave no trace

The outermost layer sheds a call before the rule is asked, and the response of a shed call holds no
guard, however often it is polled.  A run without the shed calls, and without what is done to their
responses, therefore goes through the same states.  Only the responses are numbered anew: `kept`
lists the old numbers of those that are left, in their order, so the new number of a response is its
place in `kept`.
-/

namespace Throttle.Middleware

/-- The count of shed calls decides nothing. -/
theorem Shared.call_shed (clock : Nat) (r : Request) (outcome : Poll) (layers : List Layer)
    (s : Shared) (n : Nat) :
    ∃ m, call clock r outcome layers { s with shed := n } =
      ((call clock r outcome layers s).1,
        { (call clock r outcome layers s).2 with shed := m }) := by
  induction layers generalizing s n with
  | nil => exact ⟨n, rfl⟩
  | cons layer layers ih =>
      cases layer with
      | global countsShed =>
          cases hacquire : s.limiter.acquire? with
          | none => cases countsShed <;> simp [call, hacquire]
          | some limiter =>
              obtain ⟨m, heq⟩ := ih { s with limiter } n
              exact ⟨m, by simp only [call, hacquire, heq]⟩
      | perKey i extract fallback =>
          cases hkey : callKey? extract fallback r with
          | none => exact ⟨n, by simp only [call, hkey]⟩
          | some k =>
              rcases hvisit : (s.rules i).visit clock k with ⟨rule, _ | d⟩
              · obtain ⟨m, heq⟩ := ih (s.setRule i rule) n
                refine ⟨m, ?_⟩
                simp only [setRule] at heq
                simp only [call, hkey, hvisit, setRule, heq]
              · exact ⟨n, by simp only [call, hkey, hvisit, setRule]⟩

/-- A call that is shed at the door leaves everything as it was, but for the count. -/
theorem Shared.shared_of_shed {clock : Nat} {r : Request} {outcome : Poll} {countsShed : Bool}
    {layers : List Layer} {s : Shared}
    (h : (call clock r outcome (.global countsShed :: layers) s).1 = .rejected (some .overloaded)) :
    ∃ n, (call clock r outcome (.global countsShed :: layers) s).2 = { s with shed := n } := by
  rcases Layer.passes_or_refuses clock r s (.global countsShed) with
    ⟨s', hpasses⟩ | ⟨e, s', hrefuses⟩
  · rw [hpasses.call_cons] at h
    contradiction
  · rw [hrefuses.call_cons]
    cases hrefuses with
    | overloaded => exact ⟨_, rfl⟩

/-! ## Runs with the shed calls left out -/

/-- The command for responses that are numbered by their places in `kept`. -/
def Command.renumber (kept : List Nat) : Command → Command
  | .poll id => .poll (kept.idxOf id)
  | .resolve id outcome => .resolve (kept.idxOf id) outcome
  | .drop id => .drop (kept.idxOf id)
  | c => c

/-- The answer to a command likewise; of all numbers only that of a call is a response's. -/
def Answer.renumber (kept : List Nat) : Command → Answer → Answer
  | .call _ _ _, .number id => .number (kept.idxOf id)
  | _, a => a

namespace Gateway

/-- What the services share, apart from the count of shed calls. -/
def sight (g : Gateway) : Shared := { g.shared with shed := 0 }

def sheds (g : Gateway) (clock : Nat) : Command → Bool
  | .call service request outcome | .send service request outcome =>
      (g.shared.call clock request outcome (g.stack service)).1 = .rejected (some .overloaded)
  | _ => false

theorem sheds_iff_answer {g : Gateway} {countsShed : Bool} {i : Nat} {extract : KeyExtractor}
    {fallback : Option Key} (h : g.Uniform [.global countsShed, .perKey i extract fallback])
    (clock service : Nat) (request : Request) {outcome : Poll}
    (houtcome : outcome ≠ .failed (.limit .overloaded)) :
    g.sheds clock (.send service request outcome) = true ↔
      (g.step clock (.send service request outcome)).2 =
        .result (.failed (.limit .overloaded)) := by
  simp only [sheds, step, h.stack, decide_eq_true_eq, Answer.result.injEq]
  have hpoll : ∀ (layer : Layer) (r : Response) (l : Limiter),
      ((Response.passed layer.isGlobal r).poll l).1 = (r.poll l).1 :=
    fun layer r l => Response.poll_enclose [layer] r l
  rcases Layer.passes_or_refuses clock request g.shared (.global countsShed) with
    ⟨s, hpasses⟩ | ⟨e, s, hrefuses⟩
  · rw [hpasses.call_cons, hpoll]
    rcases Layer.passes_or_refuses clock request s (.perKey i extract fallback) with
      ⟨s', hpasses'⟩ | ⟨e, s', hrefuses'⟩
    · rw [hpasses'.call_cons, hpoll]
      simpa [Shared.call, Response.poll] using houtcome
    · rw [hrefuses'.call_cons]
      cases hrefuses' <;> simp [Response.poll]
  · rw [hrefuses.call_cons]
    cases hrefuses
    simp [Response.poll]

/-- The command is shed, or it is about the response of a call that was. -/
def hides (g : Gateway) (kept : List Nat) (clock : Nat) : Command → Bool
  | .poll id | .resolve id _ | .drop id => id < g.responses.length ∧ id ∉ kept
  | c => g.sheds clock c

/-- The numbers of the responses that are left, after a command that is. -/
def keep (g : Gateway) (kept : List Nat) : Command → List Nat
  | .call _ _ _ => kept ++ [g.responses.length]
  | _ => kept

/-- The commands of a run with their answers, and what is to be seen after each of them. -/
def record (g : Gateway) : List (Nat × Command) → List (Event Command (Answer × Shared))
  | [] => []
  | (clock, c) :: rest =>
      let (g, answer) := g.step clock c
      ⟨clock, c, answer, g.sight⟩ :: g.record rest

/-- The record of a run without what is hidden, and with the responses numbered anew. -/
def unshed (g : Gateway) (kept : List Nat) :
    List (Nat × Command) → List (Event Command (Answer × Shared))
  | [] => []
  | (clock, c) :: rest =>
      let (g', answer) := g.step clock c
      if g.hides kept clock c then g'.unshed kept rest
      else
        ⟨clock, c.renumber kept, answer.renumber (g.keep kept c) c, g'.sight⟩ ::
          g'.unshed (g.keep kept c) rest

/-! ## One step in both runs -/

/-- `g'` is `g` with the responses numbered by `kept`; the others were of shed calls. -/
structure Without (g g' : Gateway) (kept : List Nat) : Prop where
  shared : ∃ shed, g'.shared = { g.shared with shed }
  layers : g'.layers = g.layers
  services : g'.services = g.services
  readiness : g'.readiness = g.readiness
  responses : g'.responses = kept.map g.response?
  nodup : kept.Nodup
  lt : ∀ id ∈ kept, id < g.responses.length
  rejected : ∀ id ∉ kept, ∀ r, g.response? id = some r → ∃ e, r = .rejected e

theorem lt_of_response? {g : Gateway} {id : Nat} {r : Response} (h : g.response? id = some r) :
    id < g.responses.length :=
  (List.getElem?_eq_some_iff.1 (Option.join_eq_some_iff.1 h)).1

theorem response?_setResponse {g : Gateway} {id : Nat} (hid : id < g.responses.length)
    (r : Option Response) :
    (g.setResponse id r).response? = Function.update g.response? id r := by
  funext j
  unfold response? setResponse
  rw [List.getElem?_set, Function.update_apply]
  by_cases heq : j = id
  · simp [heq, hid]
  · simp [heq, Ne.symm heq]

def addResponse (g : Gateway) (r : Response) : Gateway :=
  { g with responses := g.responses ++ [some r] }

theorem response?_addResponse (g : Gateway) (r : Response) :
    (g.addResponse r).response? = Function.update g.response? g.responses.length (some r) := by
  funext j
  unfold response? addResponse
  rw [List.getElem?_append, Function.update_apply]
  split
  next hlt => simp [Nat.ne_of_lt hlt]
  next hle =>
    by_cases heq : j = g.responses.length
    · simp [heq]
    · have hlt : g.responses.length < j := by omega
      simp [heq, Nat.le_of_lt hlt, Nat.sub_ne_zero_of_lt hlt]

namespace Without

variable {g g' : Gateway} {kept : List Nat} {clock id : Nat} {s : Shared} {response : Response}

theorem sight (h : g.Without g' kept) : g'.sight = g.sight := by
  obtain ⟨shed, heq⟩ := h.shared
  rw [Gateway.sight, heq, Gateway.sight]

theorem stack (h : g.Without g' kept) (service : Nat) : g'.stack service = g.stack service := by
  rw [Gateway.stack, h.services, h.layers, Gateway.stack]

theorem limiter (h : g.Without g' kept) : g'.shared.limiter = g.shared.limiter := by
  obtain ⟨shed, heq⟩ := h.shared
  rw [heq]

theorem response? (h : g.Without g' kept) (hid : id < g.responses.length → id ∈ kept) :
    g'.response? (kept.idxOf id) = g.response? id := by
  by_cases hmem : id ∈ kept
  · simp [Gateway.response?, h.responses, List.getElem?_idxOf hmem]
  · have hle : g.responses.length ≤ id := Nat.le_of_not_lt (mt hid hmem)
    simp [Gateway.response?, h.responses, List.idxOf_eq_length hmem, hle]

theorem setShared (h : g.Without g' kept) (s : Shared) (shed : Nat) :
    Without { g with shared := s } { g' with shared := { s with shed } } kept :=
  ⟨⟨shed, rfl⟩, h.layers, h.services, h.readiness, h.responses, h.nodup, h.lt, h.rejected⟩

theorem setLimiter (h : g.Without g' kept) (limiter : Limiter) :
    (g.setLimiter limiter).Without (g'.setLimiter limiter) kept := by
  obtain ⟨shed, heq⟩ := h.shared
  rw [Gateway.setLimiter, Gateway.setLimiter, heq]
  exact h.setShared _ shed

theorem setResponse (h : g.Without g' kept) (hid : id ∈ kept) (r : Option Response) :
    (g.setResponse id r).Without (g'.setResponse (kept.idxOf id) r) kept := by
  have hlt := h.lt id hid
  refine ⟨h.shared, h.layers, h.services, h.readiness, ?_, h.nodup, ?_, ?_⟩
  · rw [response?_setResponse hlt, h.nodup.map_update, if_pos hid, ← h.responses]
    rfl
  · simpa [Gateway.setResponse] using h.lt
  · intro j hj
    have hne : j ≠ id := fun heq => hj (heq ▸ hid)
    rw [response?_setResponse hlt, Function.update_of_ne hne]
    exact h.rejected j hj

/-- What is done to the response of a shed call shows nowhere. -/
theorem setRejected (h : g.Without g' kept) (hid : id ∉ kept) (hlt : id < g.responses.length)
    {r : Option Response} (hr : ∀ r', r = some r' → ∃ e, r' = .rejected e) :
    (g.setResponse id r).Without g' kept := by
  refine ⟨h.shared, h.layers, h.services, h.readiness, ?_, h.nodup, ?_, ?_⟩
  · rw [response?_setResponse hlt, h.nodup.map_update, if_neg hid, h.responses]
  · simpa [Gateway.setResponse] using h.lt
  · intro j hj
    rw [response?_setResponse hlt, Function.update_apply]
    split
    · exact hr
    · exact h.rejected j hj

theorem length_not_mem (h : g.Without g' kept) : g.responses.length ∉ kept :=
  fun hmem => Nat.lt_irrefl _ (h.lt _ hmem)

theorem addResponse (h : g.Without g' kept) (r : Response) :
    (g.addResponse r).Without (g'.addResponse r) (kept ++ [g.responses.length]) := by
  refine ⟨h.shared, h.layers, h.services, h.readiness, ?_, ?_, ?_, ?_⟩
  · rw [response?_addResponse, List.map_append, h.nodup.map_update, if_neg h.length_not_mem]
    simp [Gateway.addResponse, h.responses]
  · exact List.nodup_append_comm.1 (List.nodup_cons.2 ⟨h.length_not_mem, h.nodup⟩)
  · intro id hid
    rcases List.mem_append.1 hid with hid | hid
    · simpa [Gateway.addResponse] using Nat.lt_succ_of_lt (h.lt id hid)
    · simp [Gateway.addResponse, List.mem_singleton.1 hid]
  · intro id hid
    rw [List.mem_append, List.mem_singleton, not_or] at hid
    rw [response?_addResponse, Function.update_of_ne hid.2]
    exact h.rejected id hid.1

theorem addRejected (h : g.Without g' kept) (e : Option LimitError) :
    (g.addResponse (.rejected e)).Without g' kept := by
  refine ⟨h.shared, h.layers, h.services, h.readiness, ?_, h.nodup, ?_, ?_⟩
  · rw [response?_addResponse, h.nodup.map_update, if_neg h.length_not_mem, h.responses]
  · intro id hid
    simpa [Gateway.addResponse] using Nat.lt_succ_of_lt (h.lt id hid)
  · intro id hid r hr
    rw [response?_addResponse, Function.update_apply] at hr
    split at hr
    · cases hr
      exact ⟨e, rfl⟩
    · exact h.rejected id hid r hr

theorem reshed (h : g.Without g' kept) (n : Nat) :
    Without { g with shared := { g.shared with shed := n } } g' kept := by
  obtain ⟨shed, heq⟩ := h.shared
  exact ⟨⟨shed, heq⟩, h.layers, h.services, h.readiness, h.responses, h.nodup, h.lt, h.rejected⟩

theorem addService (h : g.Without g' kept) (stack : List Layer) :
    (g'.addService stack).2 = (g.addService stack).2 ∧
      (g.addService stack).1.Without (g'.addService stack).1 kept := by
  have hservices := h.services
  refine ⟨by simp only [Gateway.addService, hservices], h.shared, h.layers, ?_, h.readiness,
    h.responses, h.nodup, h.lt, h.rejected⟩
  simp only [Gateway.addService, hservices]

variable {c : Command} {countsShed : Bool} {layers : List Layer}

/-- A hidden command changes nothing that the run without it would show. -/
theorem hide (h : g.Without g' kept) (hlayers : g.Uniform (.global countsShed :: layers))
    (hc : g.hides kept clock c = true) : (g.step clock c).1.Without g' kept := by
  cases c with
  | call service request outcome =>
      simp only [hides, sheds, decide_eq_true_eq, hlayers.stack] at hc
      obtain ⟨n, hshared⟩ := Shared.shared_of_shed hc
      simp only [step, hlayers.stack, hc, hshared]
      exact (h.reshed n).addRejected _
  | send service request outcome =>
      simp only [hides, sheds, decide_eq_true_eq, hlayers.stack] at hc
      obtain ⟨n, hshared⟩ := Shared.shared_of_shed hc
      simp only [step, hlayers.stack, hc, hshared, Response.poll, Response.drop]
      exact h.reshed n
  | poll id =>
      simp only [hides, decide_eq_true_eq] at hc
      cases hresponse : g.response? id with
      | none => simpa only [step, hresponse] using h
      | some response =>
          obtain ⟨e, rfl⟩ := h.rejected id hc.2 response hresponse
          simp only [step, hresponse, Response.poll]
          exact h.setRejected hc.2 hc.1 (by rintro _ ⟨rfl⟩; exact ⟨none, rfl⟩)
  | resolve id outcome =>
      simp only [hides, decide_eq_true_eq] at hc
      cases hresponse : g.response? id with
      | none => simpa only [step, hresponse] using h
      | some response =>
          obtain ⟨e, rfl⟩ := h.rejected id hc.2 response hresponse
          simp only [step, hresponse, Response.resolve]
          exact h.setRejected hc.2 hc.1 (by rintro _ ⟨rfl⟩; exact ⟨e, rfl⟩)
  | drop id =>
      simp only [hides, decide_eq_true_eq] at hc
      cases hresponse : g.response? id with
      | none => simpa only [step, hresponse] using h
      | some response =>
          obtain ⟨e, rfl⟩ := h.rejected id hc.2 response hresponse
          simp only [step, hresponse, Response.drop]
          exact h.setRejected hc.2 hc.1 (by simp)
  | _ => simp [hides, sheds] at hc

/-- Any other command gets the same answer in both runs. -/
theorem keep (h : g.Without g' kept) (hc : g.hides kept clock c = false) :
    (g'.step clock (c.renumber kept)).2 = (g.step clock c).2.renumber (g.keep kept c) c ∧
      (g.step clock c).1.Without (g'.step clock (c.renumber kept)).1 (g.keep kept c) := by
  obtain ⟨shed, hshared⟩ := h.shared
  have hkept : ∀ id, g.hides kept clock (.poll id) = false → id < g.responses.length →
      id ∈ kept := by
    intro id hid hlt
    simpa [hides, hlt] using hid
  cases c with
  | call service request outcome =>
      obtain ⟨n, hcall⟩ := g.shared.call_shed clock request outcome (g.stack service) shed
      simp only [Command.renumber, step, h.stack, hshared, hcall]
      refine ⟨?_, ?_⟩
      · simp [Answer.renumber, Gateway.keep, h.responses, List.idxOf_append, h.length_not_mem]
      · exact (h.setShared _ n).addResponse _
  | send service request outcome =>
      obtain ⟨n, hcall⟩ := g.shared.call_shed clock request outcome (g.stack service) shed
      simp only [Command.renumber, step, h.stack, hshared, hcall]
      exact ⟨rfl, h.setShared _ n⟩
  | poll id =>
      have hsame := h.response? (hkept id hc)
      simp only [Command.renumber, step, hsame]
      cases hresponse : g.response? id with
      | none => exact ⟨rfl, h⟩
      | some response =>
          have hmem := hkept id hc (lt_of_response? hresponse)
          simp only [h.limiter]
          exact ⟨rfl, (h.setLimiter _).setResponse hmem _⟩
  | resolve id outcome =>
      have hsame := h.response? (hkept id hc)
      simp only [Command.renumber, step, hsame]
      cases hresponse : g.response? id with
      | none => exact ⟨rfl, h⟩
      | some response =>
          have hmem := hkept id hc (lt_of_response? hresponse)
          exact ⟨rfl, h.setResponse hmem _⟩
  | drop id =>
      have hsame := h.response? (hkept id hc)
      simp only [Command.renumber, step, hsame]
      cases hresponse : g.response? id with
      | none => exact ⟨rfl, h⟩
      | some response =>
          have hmem := hkept id hc (lt_of_response? hresponse)
          simp only [h.limiter]
          exact ⟨rfl, (h.setLimiter _).setResponse hmem _⟩
  | setReady outcome =>
      exact ⟨rfl, h.shared, h.layers, h.services, rfl, h.responses, h.nodup, h.lt, h.rejected⟩
  | ready service => exact ⟨congrArg Answer.readiness h.readiness, h⟩
  | clone service =>
      simp only [Command.renumber, step, h.stack]
      exact h.addService _
  | relayer =>
      simp only [Command.renumber, step, h.layers]
      exact h.addService _
  | sweep =>
      simp only [Command.renumber, step, hshared]
      exact ⟨rfl, h.setShared _ shed⟩

theorem run (h : g.Without g' kept) (hlayers : g.Uniform (.global countsShed :: layers))
    (commands : List (Nat × Command)) :
    g'.record ((g.unshed kept commands).map Event.call) = g.unshed kept commands ∧
      (g'.run ((g.unshed kept commands).map Event.call)).1.sight = (g.run commands).1.sight := by
  induction commands generalizing g g' kept with
  | nil => exact ⟨rfl, h.sight⟩
  | cons c rest ih =>
      obtain ⟨clock, c⟩ := c
      have hnext := hlayers.step clock c
      rw [unshed]
      cases hc : g.hides kept clock c with
      | true => exact ih (h.hide hlayers hc) hnext
      | false =>
          obtain ⟨hanswer, hstep⟩ := h.keep hc
          obtain ⟨hrecord, hsight⟩ := ih hstep hnext
          refine ⟨?_, hsight⟩
          simp only [Bool.false_eq_true, if_false, List.map_cons, Event.call, record, hanswer,
            hstep.sight]
          exact congrArg _ hrecord

end Without

/--
Shed calls are invisible to everyone else, however the keys are drawn.  Run again without them and
without what was done to their responses, the other commands get the answers that they got, up to
the numbers of the responses, and after each of them and at the end the calls that reached the
service, the limiter and the rules, with all that their windows hold, are what they were.
-/
theorem shed_calls_invisible (limiter : Limiter) (rules : Nat → Rule Key) (countsShed : Bool)
    (i : Nat) (extract : KeyExtractor) (fallback : Option Key) (commands : List (Nat × Command)) :
    let start := ofRules limiter rules [.global countsShed, .perKey i extract fallback]
    let others := start.unshed [] commands
    start.record (others.map Event.call) = others ∧
      (start.run (others.map Event.call)).1.sight = (start.run commands).1.sight := by
  intro start others
  have hstart : start.Without start [] := by
    refine ⟨⟨0, rfl⟩, rfl, rfl, rfl, rfl, .nil, by simp, ?_⟩
    intro id _ r hr
    simp [start, response?, ofRules] at hr
  exact hstart.run (uniform_ofRules limiter rules _) commands

/-- In the opposite order the shed calls spend the allowance that the last call asks for. -/
example :
    let start := create (.create 1 .strict) ⟨[.create 0 (.ofSecs 1) 2 none], .independent⟩
    let layers : List Layer := [.global true, .rule (Extractor.header "x-key") (some (.uint 7))]
    let commands := [(0, .call 0 .anonymous .pending), (1, .call 0 .anonymous .pending),
      (2, .send 0 .anonymous (.ok "")), (3, .poll 1), (3, .poll 0), (4, .resolve 0 (.ok "")),
      (4, .poll 0), (5, .drop 1), (6, .call 0 .anonymous (.ok "")), (6, .poll 2)]
    let others := [(0, .call 0 .anonymous .pending), (3, .poll 0), (4, .resolve 0 (.ok "")),
      (4, .poll 0), (6, .call 0 .anonymous (.ok "")), (6, .poll 1)]
    ((start layers).unshed [] commands).map Event.call = others ∧
      ((start layers).run commands).2.getLast? = some (.result (.ok "")) ∧
      ((start layers.reverse).run commands).2.getLast? ≠
        ((start layers.reverse).run others).2.getLast? := by
  decide +kernel

end Gateway

end Throttle.Middleware
