import Throttle.Yaml.Node

/-!
Typed values of nodes under the core schema.

A plain scalar without text counts as an empty collection, and as a missing optional value, as the
plain words for null do. Numbers are read from plain scalars; any scalar has a text, quoted or not.
-/

namespace Throttle.Yaml

def isNullWord (s : String) : Bool := s == "null" || s == "Null" || s == "NULL" || s == "~"

/-- Digits of a radix, either case, that make a 64-bit word. -/
def digits? (radix : Nat) (cs : List Char) : Option Nat :=
  if cs.isEmpty then none
  else do
    let n ← Text.number? radix cs
    if n < UInt64.size then some n else none

/-- The radix that a two-letter start of a number announces, and its digits. -/
def radix? : List Char → Option (Nat × List Char)
  | '0' :: 'x' :: cs => some (16, cs)
  | '0' :: 'o' :: cs => some (8, cs)
  | '0' :: 'b' :: cs => some (2, cs)
  | _ => none

/-- More than one decimal digit with a leading zero make a text, not a number. -/
def isZeroPadded : List Char → Bool
  | '0' :: c :: cs => (c :: cs).all Char.isDigit
  | _ => false

/-- A natural number below 2⁶⁴: an optional plus sign, then digits with or without a radix. -/
def word? (s : String) : Option Nat :=
  let cs := match s.toList with
    | '+' :: cs => cs
    | cs => cs
  match radix? cs with
  | some (radix, ds) => digits? radix ds
  | none => if isZeroPadded cs then none else digits? 10 cs

namespace Document

def text? (d : Document) (n : Node) : Option String :=
  match d.target n with
  | some (.scalar text _ _) => some text
  | _ => none

/-- A number is plain, or a literal block tagged as an integer. -/
def number? (d : Document) (n : Node) : Option UInt64 :=
  match d.target n with
  | some (.scalar text .plain _) => (word? text).map .ofNat
  | some (.scalar text .literal tag) =>
      if tag = some (.core "int") then (word? text).map .ofNat else none
  | _ => none

/-- A list; a blank counts as an empty one. -/
def items? (d : Document) (n : Node) : Option (List Node) :=
  match d.target n with
  | some (.sequence items) => some items
  | some (.scalar "" .plain _) => some []
  | _ => none

def entries? (d : Document) (n : Node) : Option (List (Node × Node)) :=
  match d.target n with
  | some (.mapping entries) => some entries
  | some (.scalar "" .plain _) => some []
  | _ => none

/-- The value of an optional node: none for a blank or a null. -/
def optional? {α : Type} (d : Document) (read : Node → Option α) (n : Node) : Option (Option α) :=
  match d.target n with
  | some (.scalar text .plain none) =>
      if text.isEmpty || isNullWord text then some none else (read n).map some
  | some (.scalar text .plain (some tag)) =>
      if tag = .core "null" then if isNullWord text then some none else none
      else (read n).map some
  | _ => (read n).map some

/-- The name of a variant: a scalar's text, or a local tag on a blank or a null. -/
def variant? (d : Document) (n : Node) : Option String :=
  match d.target n with
  | some (.scalar text style tag) =>
      match tag.bind (·.localName?) with
      | some name =>
          if style = .plain ∧ (text.isEmpty ∨ isNullWord text) then some name else none
      | none => some text
  | _ => none

/--
The entries of a record whose fields have the given names. A known field may stand there once;
unknown ones are passed over.
-/
def fields? (d : Document) (known : List String) (n : Node) : Option (List (String × Node)) := do
  let named ← (← d.entries? n).mapM fun (key, value) => do some (← d.text? key, value)
  let fields := named.filter fun (name, _) => known.contains name
  if known.all fun name => (fields.filter (·.1 = name)).length ≤ 1 then some fields else none

end Document

end Throttle.Yaml
