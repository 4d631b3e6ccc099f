import Throttle.Duration
import Throttle.Text.Quoted

/-!
Errors of the middleware and the responses they turn into.
-/

namespace Throttle.Middleware

inductive LimitError where
  | rateLimited (retryAfter : Duration)
  | overloaded
  | missingKey
  | inner (text : String)
  deriving DecidableEq, Repr

namespace LimitError

def message : LimitError → String
  | .rateLimited d => "Rate limit exceeded; retry after " ++ d.describe
  | .overloaded => "Service is overloaded; request shed"
  | .missingKey => "Request carries no rate limit key"
  | .inner text => "Internal service error: " ++ text

def describe : LimitError → String
  | .rateLimited d => "RateLimited \x7b retry_after: " ++ d.describe ++ " \x7d"
  | .overloaded => "Overloaded"
  | .missingKey => "MissingKey"
  | .inner text => "Inner(" ++ Text.quoted text ++ ")"

def status : LimitError → Nat
  | .rateLimited _ => 429
  | .overloaded => 503
  | .missingKey => 400
  | .inner _ => 500

/-- Whole seconds to wait: the hint rounded up, and at least one. -/
def wholeSeconds (d : Duration) : UInt64 := max (d.secs + if (d.nanos : Nat) = 0 then 0 else 1) 1

def retryAfterHeader? : LimitError → Option UInt64
  | .rateLimited d => some (wholeSeconds d)
  | _ => none

def contentType : String := "text/plain; charset=utf-8"

end LimitError

/-- Why a response failed: an error of the middleware, or one of the service itself. -/
inductive Failure where
  | limit (e : LimitError)
  | other (text : String)
  deriving DecidableEq, Repr

def Failure.message : Failure → String
  | .limit e => e.message
  | .other text => text

end Throttle.Middleware
