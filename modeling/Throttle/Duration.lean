/-!
Spans of time: whole seconds in a 64-bit word and a nanosecond remainder.

`toNanos` is the view through which durations are compared. `signedNanos` is the count as a signed
64-bit word keeps it: a span of 2⁶³ nanoseconds or more wraps, so it may come out negative or tiny.
Sums of such words wrap in the same way.
`describe` writes a span in its largest unit of `s`, `ms`, `µs`, `ns` with a nonzero whole part,
followed by the exact fraction.
-/

namespace Throttle

/-- A number as a signed 64-bit word keeps it: outside the range it wraps around. -/
def signedWord (n : Int) : Int := Int.bmod n UInt64.size

structure Duration where
  secs : UInt64
  nanos : Fin 1000000000
  deriving DecidableEq, Repr

namespace Duration

def toNanos (d : Duration) : Nat := d.secs.toNat * 1000000000 + d.nanos

/-- Inverse to `toNanos` below 2⁶⁴ seconds. -/
def ofNanos (n : Nat) : Duration := ⟨.ofNat (n / 1000000000), .ofNat _ n⟩

def ofSecs (n : Nat) : Duration := ⟨.ofNat n, 0⟩

def signedNanos (d : Duration) : Int := signedWord d.toNanos

instance : Max Duration := ⟨fun a b => if a.toNanos ≤ b.toNanos then b else a⟩

instance : Min Duration := ⟨fun a b => if a.toNanos ≤ b.toNanos then a else b⟩

/-- The fraction `part / 10 ^ places` after its point, without trailing zeros. -/
def fractionDigits (part places : Nat) : List Char :=
  let digits := Nat.toDigits 10 part
  let padded := List.replicate (places - digits.length) '0' ++ digits
  (padded.reverse.dropWhile (· == '0')).reverse

def decimal (whole part places : Nat) : List Char :=
  Nat.toDigits 10 whole ++ if part = 0 then [] else '.' :: fractionDigits part places

def describe (d : Duration) : String :=
  let n : Nat := d.nanos
  if d.secs ≠ 0 then .ofList (decimal d.secs.toNat n 9) ++ "s"
  else if 1000000 ≤ n then .ofList (decimal (n / 1000000) (n % 1000000) 6) ++ "ms"
  else if 1000 ≤ n then .ofList (decimal (n / 1000) (n % 1000) 3) ++ "µs"
  else .ofList (Nat.toDigits 10 n) ++ "ns"

end Duration

end Throttle
