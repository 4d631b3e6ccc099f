import Throttle.Middleware.Error
import Throttle.Middleware.Response
import Throttle.Request
import Throttle.Rule

/-!
Layers around a service, and a call through them.

A stack lists its layers from the outermost in. All global layers share one limiter. A rule layer
knows the number of its rule, so some layers may share a rule and others have one of their own, and
each draws the keys in its own way. A global layer lets a call pass if it acquires a guard, and a
rule layer if the rule admits the call's key; the first layer that refuses ends the call there.
-/

namespace Throttle.Middleware

inductive Layer where
  | global (countsShed : Bool)
  | perKey (rule : Nat) (extract : KeyExtractor) (fallback : Option Key)

/-- A layer over the first rule. -/
def Layer.rule (extract : KeyExtractor) (fallback : Option Key) : Layer :=
  .perKey 0 extract fallback

/-- The key a rule layer counts a request under. -/
def callKey? (extract : KeyExtractor) (fallback : Option Key) (r : Request) : Option Key :=
  extract r <|> fallback

/-- What the layers share, with the calls that reached the service and those shed with notice. -/
structure Shared where
  limiter : Limiter
  rules : Nat → Rule Key
  hits : Nat
  shed : Nat

namespace Shared

/-- The first rule. -/
def rule (s : Shared) : Rule Key := s.rules 0

def setRule (s : Shared) (i : Nat) (rule : Rule Key) : Shared :=
  { s with rules := fun j => if j = i then rule else s.rules j }

@[simp]
theorem rules_setRule_self (s : Shared) (i : Nat) (rule : Rule Key) :
    (s.setRule i rule).rules i = rule :=
  if_pos rfl

theorem rules_setRule_of_ne (s : Shared) {i j : Nat} (h : j ≠ i) (rule : Rule Key) :
    (s.setRule i rule).rules j = s.rules j :=
  if_neg h

/-- A call through the layers to a service that answers with `outcome`. -/
def call (clock : Nat) (r : Request) (outcome : Poll) :
    List Layer → Shared → Response × Shared
  | [], s => (.inner outcome, { s with hits := s.hits + 1 })
  | .global countsShed :: layers, s =>
      match s.limiter.acquire? with
      | some limiter =>
          let (response, s) := call clock r outcome layers { s with limiter }
          (.passed true response, s)
      | none =>
          (.rejected (some .overloaded), if countsShed then { s with shed := s.shed + 1 } else s)
  | .perKey i extract fallback :: layers, s =>
      match callKey? extract fallback r with
      | none => (.rejected (some .missingKey), s)
      | some k =>
          match (s.rules i).visit clock k with
          | (rule, .admitted) =>
              let (response, s) := call clock r outcome layers (s.setRule i rule)
              (.passed false response, s)
          | (rule, .refused d) => (.rejected (some (.rateLimited d)), s.setRule i rule)

end Shared

/-- The stack that sheds load before it spends allowance. -/
def shedFirst (extract : KeyExtractor) : List Layer := [.global false, .rule extract none]

/-! ## Texts for diagnostics -/

def describeGlobalLayer (l : Limiter) (countsShed : Bool) : String :=
  "GlobalLimitLayer \x7b limiter: " ++ l.describe ++ ", on_overflow: " ++ toString countsShed
    ++ " \x7d"

def describeGlobalService (inner : String) (l : Limiter) : String :=
  "GlobalLimitService \x7b inner: " ++ inner ++ ", limiter: " ++ l.describe ++ " \x7d"

def describeExtractor (extractor : String) : Option Key → String
  | none => extractor
  | some k => "Fallback \x7b extractor: " ++ extractor ++ ", key: " ++ k.describe ++ " \x7d"

def describeRuleLayer {κ : Type} (r : Rule κ) (extractor : String) (fallback : Option Key) :
    String :=
  "RuleLayer \x7b rule: " ++ r.describe ++ ", extractor: " ++ describeExtractor extractor fallback
    ++ " \x7d"

end Throttle.Middleware
