import Throttle.Middleware.Gateway

/-!
# How a call passes through the layers

A call goes inwards as long as the layers let it pass, and the first layer that refuses ends it.
What it leaves behind is the work of the layers up to there; those further in are not asked.  The
response is wrapped once for every layer passed, which leaves its answer as it is.
-/

namespace Throttle.Middleware

variable {clock : Nat} {r : Request} {s s' s₁ : Shared} {layer : Layer}
  {layers outer inner : List Layer} {e : LimitError} {outcome : Poll}

/-! ## One layer -/

theorem callKey?_eq_none {extract : KeyExtractor} {fallback : Option Key} :
    callKey? extract fallback r = none ↔ extract r = none ∧ fallback = none := by
  simp [callKey?]

namespace Layer

def isGlobal : Layer → Bool
  | .global _ => true
  | .perKey _ _ _ => false

/-- Whether a layer gives notice of the calls that it refuses for want of a guard. -/
def givesNotice : Layer → Bool
  | .global countsShed => countsShed
  | .perKey _ _ _ => false

/-- The rule by which a layer counts a request and the key under which it does, if it counts any. -/
def asks? (r : Request) : Layer → Option (Nat × Key)
  | .global _ => none
  | .perKey i extract fallback => (callKey? extract fallback r).map (i, ·)

/-- A layer lets a call pass, at the price of one guard or of one visit. -/
inductive Passes (clock : Nat) (r : Request) (s : Shared) : Layer → Shared → Prop where
  | global {countsShed : Bool} {limiter : Limiter} : s.limiter.acquire? = some limiter →
      Passes clock r s (.global countsShed) { s with limiter }
  | perKey {i : Nat} {extract : KeyExtractor} {fallback : Option Key} {k : Key}
      {rule : Rule Key} :
      callKey? extract fallback r = some k → (s.rules i).visit clock k = (rule, .admitted) →
      Passes clock r s (.perKey i extract fallback) (s.setRule i rule)

/-- A layer refuses a call: the error it answers with, and the notice or the pruning it leaves. -/
inductive Refuses (clock : Nat) (r : Request) (s : Shared) :
    Layer → LimitError → Shared → Prop where
  | overloaded {countsShed : Bool} : s.limiter.acquire? = none →
      Refuses clock r s (.global countsShed) .overloaded
        { s with shed := s.shed + countsShed.toNat }
  | missingKey {i : Nat} {extract : KeyExtractor} : extract r = none →
      Refuses clock r s (.perKey i extract none) .missingKey s
  | rateLimited {i : Nat} {extract : KeyExtractor} {fallback : Option Key} {k : Key}
      {rule : Rule Key} {d : Duration} :
      callKey? extract fallback r = some k → (s.rules i).visit clock k = (rule, .refused d) →
      Refuses clock r s (.perKey i extract fallback) (.rateLimited d) (s.setRule i rule)

theorem passes_or_refuses (clock : Nat) (r : Request) (s : Shared) (layer : Layer) :
    (∃ s', layer.Passes clock r s s') ∨ ∃ e s', layer.Refuses clock r s e s' := by
  cases layer with
  | global countsShed =>
      cases hacquire : s.limiter.acquire? with
      | none => exact .inr ⟨_, _, .overloaded hacquire⟩
      | some limiter => exact .inl ⟨_, .global hacquire⟩
  | perKey i extract fallback =>
      cases hkey : callKey? extract fallback r with
      | none =>
          obtain ⟨hextract, rfl⟩ := callKey?_eq_none.1 hkey
          exact .inr ⟨_, _, .missingKey hextract⟩
      | some k =>
          rcases hvisit : (s.rules i).visit clock k with ⟨rule, _ | d⟩
          · exact .inl ⟨_, .perKey hkey hvisit⟩
          · exact .inr ⟨_, _, .rateLimited hkey hvisit⟩

theorem Passes.call_cons (h : layer.Passes clock r s s₁) :
    Shared.call clock r outcome (layer :: layers) s =
      (.passed layer.isGlobal (Shared.call clock r outcome layers s₁).1,
        (Shared.call clock r outcome layers s₁).2) := by
  cases h with
  | global hacquire =>
      rw [Shared.call, hacquire]
      rfl
  | perKey hkey hvisit =>
      simp only [Shared.call, hkey, hvisit]
      rfl

theorem Refuses.call_cons (h : layer.Refuses clock r s e s') :
    Shared.call clock r outcome (layer :: layers) s = (.rejected (some e), s') := by
  cases h with
  | @overloaded countsShed hacquire =>
      rw [Shared.call, hacquire]
      cases countsShed <;> rfl
  | missingKey hkey =>
      have hnone : callKey? _ none r = none := callKey?_eq_none.2 ⟨hkey, rfl⟩
      simp only [Shared.call, hnone]
  | rateLimited hkey hvisit => simp only [Shared.call, hkey, hvisit]

theorem Passes.hits (h : layer.Passes clock r s s') : s'.hits = s.hits := by
  cases h <;> rfl

theorem Refuses.hits (h : layer.Refuses clock r s e s') : s'.hits = s.hits := by
  cases h <;> rfl

theorem Passes.shed (h : layer.Passes clock r s s') : s'.shed = s.shed := by
  cases h <;> rfl

theorem Refuses.shed (h : layer.Refuses clock r s e s') :
    s'.shed = s.shed + layer.givesNotice.toNat := by
  cases h <;> rfl

end Layer

/-! ## Layer after layer -/

/-- The layers let a call pass one after the other, from `s` on. -/
inductive Enters (clock : Nat) (r : Request) : Shared → List Layer → Shared → Prop where
  | nil (s : Shared) : Enters clock r s [] s
  | cons {s s₁ s' : Shared} {layer : Layer} {layers : List Layer} :
      layer.Passes clock r s s₁ → Enters clock r s₁ layers s' →
      Enters clock r s (layer :: layers) s'

/-- The layer at which a call ends, and what the call leaves behind. -/
inductive Refused (clock : Nat) (r : Request) (s : Shared) (layers outer : List Layer)
    (e : LimitError) (s' : Shared) : Prop where
  | at {layer : Layer} {inner : List Layer} {s₁ : Shared} : layers = outer ++ layer :: inner →
      Enters clock r s outer s₁ → layer.Refuses clock r s₁ e s' →
      Refused clock r s layers outer e s'

/-- A response in the wrappings of the layers that its call passed. -/
def enclose (layers : List Layer) (response : Response) : Response :=
  layers.foldr (fun layer => .passed layer.isGlobal) response

theorem Enters.hits (h : Enters clock r s layers s') : s'.hits = s.hits := by
  induction h with
  | nil => rfl
  | cons hpasses _ ih => rw [ih, hpasses.hits]

theorem Enters.shed (h : Enters clock r s layers s') : s'.shed = s.shed := by
  induction h with
  | nil => rfl
  | cons hpasses _ ih => rw [ih, hpasses.shed]

theorem Enters.call_append (h : Enters clock r s outer s₁) :
    Shared.call clock r outcome (outer ++ inner) s =
      (enclose outer (Shared.call clock r outcome inner s₁).1,
        (Shared.call clock r outcome inner s₁).2) := by
  induction h with
  | nil => rfl
  | cons hpasses _ ih =>
      rw [List.cons_append, hpasses.call_cons, ih]
      rfl

theorem Enters.call_eq (h : Enters clock r s layers s₁) :
    Shared.call clock r outcome layers s =
      (enclose layers (.inner outcome), { s₁ with hits := s₁.hits + 1 }) := by
  have hcall : Shared.call clock r outcome (layers ++ []) s = _ := h.call_append
  rwa [List.append_nil] at hcall

theorem Refused.call_eq (h : Refused clock r s layers outer e s') :
    Shared.call clock r outcome layers s = (enclose outer (.rejected (some e)), s') := by
  obtain ⟨rfl, henters, hrefuses⟩ := h
  rw [henters.call_append, hrefuses.call_cons]

theorem Refused.hits (h : Refused clock r s layers outer e s') : s'.hits = s.hits := by
  obtain ⟨-, henters, hrefuses⟩ := h
  rw [hrefuses.hits, henters.hits]

theorem enters_or_refused (clock : Nat) (r : Request) (s : Shared) (layers : List Layer) :
    (∃ s', Enters clock r s layers s') ∨ ∃ outer e s', Refused clock r s layers outer e s' := by
  induction layers generalizing s with
  | nil => exact .inl ⟨s, .nil s⟩
  | cons layer layers ih =>
      rcases layer.passes_or_refuses clock r s with ⟨s₁, hpasses⟩ | ⟨e, s', hrefuses⟩
      · rcases ih s₁ with ⟨s', henters⟩ | ⟨outer, e, s', ⟨rfl, henters, hrefuses⟩⟩
        · exact .inl ⟨s', .cons hpasses henters⟩
        · exact .inr ⟨layer :: outer, e, s', .at rfl (.cons hpasses henters) hrefuses⟩
      · exact .inr ⟨[], e, s', .at rfl (.nil s) hrefuses⟩

/-- A call reaches the service, and then once, exactly if no layer refuses it on its way. -/
theorem hits_call_iff :
    (Shared.call clock r outcome layers s).2.hits = s.hits + 1 ↔
      ¬ ∃ outer e s', Refused clock r s layers outer e s' := by
  constructor
  · rintro hhits ⟨outer, e, s', hrefused⟩
    rw [hrefused.call_eq, hrefused.hits] at hhits
    omega
  · intro hnot
    obtain ⟨s₁, henters⟩ := (enters_or_refused clock r s layers).resolve_right hnot
    rw [henters.call_eq, henters.hits]

/-! ## The response of a call -/

namespace Response

variable {response : Response} {l : Limiter}

theorem poll_enclose (layers : List Layer) (response : Response) (l : Limiter) :
    ((enclose layers response).poll l).1 = (response.poll l).1 := by
  induction layers with
  | nil => rfl
  | cons layer layers ih =>
      change (Response.poll l (.passed layer.isGlobal (enclose layers response))).1 = _
      rw [← ih, Response.poll]
      split
      split <;> simp_all

end Response

end Throttle.Middleware
