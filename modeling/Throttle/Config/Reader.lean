import Throttle.Config
import Throttle.Yaml.Schema

/-!
Configurations read from YAML text, or from the bytes of a file.

Every record is a mapping. A missing rule, limiter or estimate is absent, a missing mode is the
default one, and every other field must be there.
-/

namespace Throttle.Config

open Yaml (Document Node)

/-- The value of a field that must be there. -/
def required {α : Type} (fields : List (String × Node)) (name : String) (read : Node → Option α) :
    Option α := do
  read (← fields.lookup name)

/-- The value of a field, or a default where it is missing. -/
def orDefault {α : Type} (fields : List (String × Node)) (name : String) (default : α)
    (read : Node → Option α) : Option α :=
  match fields.lookup name with
  | some node => read node
  | none => some default

def span? (d : Document) (n : Node) : Option Duration := do (parseSpan (← d.text? n)).toOption

def Window.ofNode? (d : Document) (n : Node) : Option Window := do
  let fields ← d.fields? ["window", "allowance", "estimated"] n
  let span ← required fields "window" (span? d)
  let allowance ← required fields "allowance" d.number?
  let estimated ← orDefault fields "estimated" none (d.optional? d.number?)
  some ⟨span, allowance, estimated⟩

def Rule.ofNode? (d : Document) (n : Node) : Option Rule := do
  let fields ← d.fields? ["mode", "rules"] n
  let mode ← orDefault fields "mode" .independent fun n => do modeOfName? (← d.variant? n)
  let windows ← required fields "rules" fun n => do (← d.items? n).mapM (Window.ofNode? d)
  some ⟨mode, windows⟩

def Limiter.ofNode? (d : Document) (n : Node) : Option Limiter := do
  let fields ← d.fields? ["max", "mode"] n
  let max ← required fields "max" d.number?
  let mode ← orDefault fields "mode" .bestEffort fun n => do limitModeOfName? (← d.variant? n)
  some ⟨max, mode⟩

def ofDocument? (d : Document) : Option Config := do
  let fields ← d.fields? ["rule", "global"] d.root
  let rule ← orDefault fields "rule" none (d.optional? (Rule.ofNode? d))
  let limiter ← orDefault fields "global" none (d.optional? (Limiter.ofNode? d))
  some ⟨rule, limiter⟩

/-- The configuration a text describes, whether or not it is of use. -/
def read? (s : String) : Option Config := do ofDocument? (← Document.ofText? s)

def parse (s : String) : Except Error Config :=
  match read? s with
  | some c => c.validate
  | none => .error .malformed

def Window.read? (s : String) : Option Window := do
  let d ← Document.ofText? s
  Window.ofNode? d d.root

/-- The configuration in a file with the given contents, if the file is there. -/
def load (contents : Option ByteArray) : Except Error Config :=
  match contents with
  | none => .error .unreadable
  | some bytes =>
      match String.fromUTF8? bytes with
      | some s => parse s
      | none => .error .unreadable

end Throttle.Config
