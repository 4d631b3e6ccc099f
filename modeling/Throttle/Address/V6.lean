import Throttle.Address.V4

/-!
IPv6 addresses and their text.

The text is eight groups of lower case hexadecimal digits between colons; the first longest run of
two or more zero groups is written `::`, and an address that maps an IPv4 address shows it in
dotted decimal after `::ffff:`.
-/

namespace Throttle.Address

structure V6 where
  groups : Vector UInt16 8
  deriving DecidableEq, Repr

namespace V6

/-- The IPv4 address behind an address of the form `::ffff:a.b.c.d`. -/
def mapped? (a : V6) : Option V4 :=
  match a.groups.toList with
  | [0, 0, 0, 0, 0, 0xFFFF, high, low] => some ⟨.ofNat (high.toNat * 65536 + low.toNat)⟩
  | _ => none

/-- Length of the run of zero groups at the front. -/
def zeros (groups : List UInt16) : Nat := (groups.takeWhile (· = 0)).length

/-- Start and length of the first longest run of zero groups at or after `start`. -/
def longestZeros (start : Nat) : List UInt16 → Nat × Nat
  | [] => (start, 0)
  | g :: rest =>
      let here := zeros (g :: rest)
      let later := longestZeros (start + 1) rest
      if later.2 ≤ here then (start, here) else later

def groupText (groups : List UInt16) : List Char :=
  Text.join ':' (groups.map fun g => Nat.toDigits 16 g.toNat)

def toText (a : V6) : String :=
  match a.mapped? with
  | some v4 => "::ffff:" ++ v4.toText
  | none =>
      let groups := a.groups.toList
      let (start, length) := longestZeros 0 groups
      if 1 < length then
        .ofList (groupText (groups.take start) ++ [':', ':']
          ++ groupText (groups.drop (start + length)))
      else .ofList (groupText groups)

end V6

end Throttle.Address
