import Throttle.Duration.TimeUnit
import Throttle.Text.Blank
import Throttle.Text.Fields
import Throttle.Text.Quoted

/-!
Durations as phrases such as `1h 30m`, `250ms` or `1.5 days`.

A phrase is a row of amounts, each a number and a unit; blanks may stand between amounts, within a
number and before its unit, and the last of them may be missing. Amounts add up, and a number may
have a fraction if its share of the unit comes out exact. All counts are 64-bit words, and one that
does not fit is refused. `0` alone needs no unit. Reading is one pass over the characters, each with
its byte offset, which the errors quote.

`Duration.toPhrase` writes whole amounts from years down to nanoseconds and leaves out zeros.
-/

namespace Throttle

inductive PhraseError where
  | empty
  | numberExpected (offset : Nat)
  | invalidCharacter (offset : Nat)
  | unitMissing (value : Nat)
  | unknownUnit (name : String)
  | tooLarge
  deriving DecidableEq, Repr

def PhraseError.message : PhraseError → String
  | .empty => "value was empty"
  | .numberExpected offset => "expected number at " ++ toString offset
  | .invalidCharacter offset => "invalid character at " ++ toString offset
  | .unitMissing value =>
      "time unit needed, for example " ++ toString value ++ "sec or " ++ toString value ++ "ms"
  | .unknownUnit name =>
      "unknown time unit " ++ Text.quoted name
        ++ ", supported units: ns, us/µs, ms, sec, min, hours, days, weeks, months, years "
        ++ "(and few variations)"
  | .tooLarge =>
      "number is too large or cannot be represented without a lack of precision "
        ++ "(values below 1ns are not supported)"

namespace Duration

namespace Phrase

/-- A count that fits a 64-bit word. -/
def word (n : Nat) : Except PhraseError Nat := if n < UInt64.size then .ok n else .error .tooLarge

structure Fraction where
  numerator : Nat
  denominator : Nat
  deriving DecidableEq, Repr

def add (d : Duration) : TimeUnit.Size → Except PhraseError Duration
  | .nanos n => do
      let nanos ← word (d.nanos + n)
      let secs ← word (d.secs.toNat + nanos / 1000000000)
      .ok ⟨.ofNat secs, (ofNanos nanos).nanos⟩
  | .secs n => do
      let secs ← word (d.secs.toNat + n)
      .ok ⟨.ofNat secs, d.nanos⟩

/-- A whole number of units. -/
def times (value : Nat) : TimeUnit.Size → Except PhraseError TimeUnit.Size
  | .nanos n => do .ok (.nanos (← word (value * n)))
  | .secs n => do .ok (.secs (← word (value * n)))

/-- An exact part of a unit. -/
def Fraction.of (f : Fraction) : TimeUnit.Size → Except PhraseError TimeUnit.Size
  | .nanos n => do .ok (.nanos (← share n))
  | .secs n => do .ok (.secs (← share n))
where
  share (n : Nat) : Except PhraseError Nat := do
    let product ← word (f.numerator * n)
    if product % f.denominator = 0 then .ok (product / f.denominator) else .error .tooLarge

def addFraction (d : Duration) (unit : TimeUnit) (f : Fraction) : Except PhraseError Duration :=
  match unit.fractionSize? with
  | none => .error .tooLarge
  | some size => do add d (← f.of size)

/-- Add a number of units, the unit spelled by its letters in reverse. -/
def addAmount (d : Duration) (value : Nat) (fraction : Option Fraction) (letters : List Char) :
    Except PhraseError Duration :=
  match TimeUnit.ofName? letters.reverse with
  | none => .error (.unknownUnit (.ofList letters.reverse))
  | some unit => do
      let d ← add d (← times value unit.size)
      match fraction with
      | none => .ok d
      | some f => addFraction d unit f

/-- Where a reading stands: what of the present amount has been seen. -/
inductive Phase where
  | start
  | between (start : Nat)
  | whole (value : Nat)
  | fraction (value : Nat) (f : Fraction) (mark : Nat)
  | unit (value : Nat) (fraction : Option Fraction) (letters : List Char)
  deriving DecidableEq, Repr

def isLetter (c : Char) : Bool := c.isAlpha || c == 'µ'

def digit (c : Char) : Nat := c.toNat - '0'.toNat

/-- Take the character `c`, whose byte offset is `offset`. -/
def step (offset : Nat) (c : Char) (d : Duration) : Phase → Except PhraseError (Duration × Phase)
  | .start => first 0 .start
  | .between start => first start (.between start)
  | .whole value => do
      if c.isDigit then .ok (d, .whole (← word (value * 10 + digit c)))
      else if Text.isBlank c then .ok (d, .whole value)
      else if isLetter c then .ok (d, .unit value none [c])
      else if c = '.' then .ok (d, .fraction value ⟨0, 1⟩ offset)
      else .error (.invalidCharacter offset)
  | .fraction value f mark => do
      if c.isDigit then
        let denominator ← word (f.denominator * 10)
        .ok (d, .fraction value ⟨f.numerator * 10 + digit c, denominator⟩ (offset + 1))
      else if Text.isBlank c then .ok (d, .fraction value f (offset + c.utf8Size))
      else if isLetter c ∧ f.denominator ≠ 1 then .ok (d, .unit value (some f) [c])
      else .error (.invalidCharacter mark)
  | .unit value fraction letters => do
      if c.isDigit then .ok (← addAmount d value fraction letters, .whole (digit c))
      else if Text.isBlank c then
        .ok (← addAmount d value fraction letters, .between (offset + c.utf8Size))
      else if isLetter c then .ok (d, .unit value fraction (c :: letters))
      else .error (.invalidCharacter offset)
where
  first (start : Nat) (stay : Phase) : Except PhraseError (Duration × Phase) :=
    if c.isDigit then .ok (d, .whole (digit c))
    else if Text.isBlank c then .ok (d, stay)
    else .error (.numberExpected start)

def finish (d : Duration) : Phase → Except PhraseError Duration
  | .start => .error .empty
  | .between _ => .ok d
  | .whole value => .error (.unitMissing value)
  | .fraction value f mark =>
      if f.denominator = 1 then .error (.invalidCharacter mark) else .error (.unitMissing value)
  | .unit value fraction letters => addAmount d value fraction letters

def read (offset : Nat) (d : Duration) (phase : Phase) :
    List Char → Except PhraseError Duration
  | [] => finish d phase
  | c :: rest => do
      let (d, phase) ← step offset c d phase
      read (offset + c.utf8Size) d phase rest

end Phrase

def ofPhrase (s : String) : Except PhraseError Duration :=
  if s = "0" then .ok (.ofSecs 0) else Phrase.read 0 (.ofSecs 0) .start s.toList

namespace Phrase

/-- The amounts of a duration with the names of their units, from years to nanoseconds. -/
def amounts (d : Duration) : List (Nat × String) :=
  let secs := d.secs.toNat
  let nanos : Nat := d.nanos
  let years := secs / 31557600
  let months := secs % 31557600 / 2630016
  let days := secs % 31557600 % 2630016 / 86400
  let rest := secs % 31557600 % 2630016 % 86400
  [(years, plural years "year"), (months, plural months "month"), (days, plural days "day"),
    (rest / 3600, "h"), (rest % 3600 / 60, "m"), (rest % 60, "s"), (nanos / 1000000, "ms"),
    (nanos / 1000 % 1000, "us"), (nanos % 1000, "ns")]
where
  plural (n : Nat) (name : String) : String := if n = 1 then name else name ++ "s"

def amountText (amount : Nat × String) : List Char := Nat.toDigits 10 amount.1 ++ amount.2.toList

end Phrase

def toPhrase (d : Duration) : String :=
  match (Phrase.amounts d).filter (·.1 ≠ 0) with
  | [] => "0s"
  | amounts => .ofList (Text.join ' ' (amounts.map Phrase.amountText))

end Duration

end Throttle
