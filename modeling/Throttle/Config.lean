import Throttle.Duration.Phrase
import Throttle.Limiter
import Throttle.Rule

/-!
Configurations of a rule and a limiter.

Values are kept as they were written: a window's minimum and defaults apply only when the rule is
built.
-/

namespace Throttle

namespace Config

structure Window where
  span : Duration
  allowance : UInt64
  estimated : Option UInt64
  deriving DecidableEq, Repr

structure Rule where
  mode : RuleMode
  windows : List Window
  deriving DecidableEq, Repr

structure Limiter where
  max : UInt64
  mode : LimiterMode
  deriving DecidableEq, Repr

/-- Why there is no configuration, or no duration in a text. -/
inductive Error where
  | unreadable
  | malformed
  | emptyRules
  | invalidDuration (value : String) (cause : PhraseError)
  deriving DecidableEq, Repr

end Config

structure Config where
  rule : Option Config.Rule
  limiter : Option Config.Limiter
  deriving DecidableEq, Repr

namespace Config

/-- The text of an error of this library's own; the others have none. -/
def Error.message? : Error → Option String
  | .unreadable => none
  | .malformed => none
  | .emptyRules => some "a rule configuration needs at least one window"
  | .invalidDuration value cause =>
      some ("invalid duration " ++ Text.quoted value ++ ": " ++ cause.message)

/-- The span of a window as people write it. -/
def parseSpan (value : String) : Except Error Duration :=
  match Duration.ofPhrase value with
  | .ok d => .ok d
  | .error cause => .error (.invalidDuration value cause)

/-- A rule that is configured must have a window. -/
def validate (c : Config) : Except Error Config :=
  if c.rule.any (·.windows.isEmpty) then .error .emptyRules else .ok c

def modeName : RuleMode → String
  | .independent => "independent"
  | .transactional => "transactional"

def modeOfName? (s : String) : Option RuleMode :=
  if s = "independent" then some .independent
  else if s = "transactional" then some .transactional
  else none

def limitModeName : LimiterMode → String
  | .bestEffort => "besteffort"
  | .strict => "strict"

def limitModeOfName? (s : String) : Option LimiterMode :=
  if s = "besteffort" then some .bestEffort
  else if s = "strict" then some .strict
  else none

end Config

/-- The configured windows, all anchored at the present. -/
def Rule.ofConfig {κ : Type} (clock : Nat) (c : Config.Rule) : Rule κ :=
  c.windows.foldl
    (fun r w => r.addWindow clock w.span w.allowance.toNat (w.estimated.map (·.toNat)))
    ⟨[], c.mode⟩

def Limiter.ofConfig (c : Config.Limiter) : Limiter := .create c.max c.mode

end Throttle
