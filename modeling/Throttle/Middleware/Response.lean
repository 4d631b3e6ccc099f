import Throttle.Limiter
import Throttle.Middleware.Error

/-!
Responses under way.

A response is nested as deep as the layers its call went through. A layer that let the call pass
wraps the response from further in, and a global layer's wrapping holds a guard until the response
first completes. A layer that refused leaves an error to be taken once. The innermost response is
whatever the service says at the moment.
-/

namespace Throttle.Middleware

/-- What a response says when it is polled. -/
inductive Poll where
  | pending
  | ok (text : String)
  | failed (f : Failure)
  deriving DecidableEq, Repr

def Poll.isReady : Poll → Bool
  | .pending => false
  | _ => true

inductive Response where
  | inner (outcome : Poll)
  | passed (guarded : Bool) (response : Response)
  | rejected (error : Option LimitError)
  deriving DecidableEq, Repr

namespace Response

/-- The answer of a rejection whose error has been taken. -/
def polledAgain : LimitError := .inner "response polled after completion"

/-- Guards that the response still holds. -/
def guards : Response → Nat
  | .inner _ => 0
  | .passed guarded response => guarded.toNat + response.guards
  | .rejected _ => 0

/-- Poll, and give back the guards of all layers once the response is there. -/
def poll (l : Limiter) : Response → Poll × Response × Limiter
  | .inner outcome => (outcome, .inner outcome, l)
  | .passed guarded response =>
      let (p, response, l) := response.poll l
      if p.isReady && guarded then (p, .passed false response, l.release)
      else (p, .passed guarded response, l)
  | .rejected error => (.failed (.limit (error.getD polledAgain)), .rejected none, l)

/-- Change what the service says, if the call reached it. -/
def resolve (outcome : Poll) : Response → Response
  | .inner _ => .inner outcome
  | .passed guarded response => .passed guarded (response.resolve outcome)
  | .rejected error => .rejected error

/-- Drop the response with the guards it holds. -/
def drop (l : Limiter) : Response → Limiter
  | .inner _ => l
  | .passed guarded response => response.drop (if guarded then l.release else l)
  | .rejected _ => l

end Response

end Throttle.Middleware
