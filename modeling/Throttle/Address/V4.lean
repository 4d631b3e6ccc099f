import Throttle.Text.Fields
import Throttle.Text.Quoted

/-!
IPv4 addresses and their dotted decimal text.

`V4.parse` accepts exactly four parts between dots, each a nonempty run of ASCII digits with a
value of at most 255; leading zeros are tolerated, signs and blanks are not. A text that is no
address has one cause, the first that applies of: nothing there, a colon, another number of parts,
a bad part. `V4.ofText` folds every such text to `0.0.0.0`.
-/

namespace Throttle.Address

structure V4 where
  bits : UInt32
  deriving DecidableEq, Repr

namespace V4

inductive ParseError where
  | empty
  | ipv6Unsupported (text : String)
  | octetCount (found : Nat)
  | invalidOctet (part : String)
  deriving DecidableEq, Repr

def ParseError.message : ParseError → String
  | .empty => "empty address"
  | .ipv6Unsupported text =>
      "IPv6 address " ++ Text.quoted text ++ " is not supported for keying"
  | .octetCount found => "expected 4 octets, found " ++ toString found
  | .invalidOctet part => "invalid octet " ++ Text.quoted part

def unspecified : V4 := ⟨0⟩

/-- The octets, most significant first. -/
def octets (a : V4) : List Nat :=
  let n := a.bits.toNat
  [n / 16777216, n / 65536 % 256, n / 256 % 256, n % 256]

def toText (a : V4) : String :=
  .ofList (Text.join '.' (a.octets.map (Nat.toDigits 10)))

def octet? (part : List Char) : Option Nat :=
  if part = [] ∨ !part.all Char.isDigit then none
  else
    let value := Nat.ofDigitChars 10 part 0
    if value ≤ 255 then some value else none

/-- The number whose base 256 digits are `high` followed by the octets read. -/
def readOctets (high : Nat) : List (List Char) → Except ParseError Nat
  | [] => .ok high
  | part :: rest =>
      match octet? part with
      | some value => readOctets (high * 256 + value) rest
      | none => .error (.invalidOctet (.ofList part))

def parse (s : String) : Except ParseError V4 :=
  let cs := s.toList
  if cs = [] then .error .empty
  else if ':' ∈ cs then .error (.ipv6Unsupported s)
  else
    let parts := Text.fields '.' cs
    if parts.length ≠ 4 then .error (.octetCount parts.length)
    else
      match readOctets 0 parts with
      | .ok n => .ok ⟨.ofNat n⟩
      | .error e => .error e

def ofText (s : String) : V4 :=
  match parse s with
  | .ok a => a
  | .error _ => unspecified

end V4

end Throttle.Address
