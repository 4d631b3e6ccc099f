import Throttle.Address.V6
import Throttle.Text.Digit

/-!
Addresses of either family, socket addresses, and their texts as a peer is written down.

The grammar is the strict one: an IPv4 octet has at most three digits and no superfluous leading
zero, an IPv6 group at most four hexadecimal digits, `::` stands for at least one group and occurs
once, and the last two groups may be an IPv4 address. A socket address ends in a colon and a 16-bit
number, and an IPv6 socket stands in brackets with an optional numeric scope.
-/

namespace Throttle.Address

inductive Ip where
  | v4 (a : V4)
  | v6 (a : V6)
  deriving DecidableEq, Repr

namespace Ip

/-- An IPv6 address that maps an IPv4 address counts as that address. -/
def canonical : Ip → Ip
  | .v4 a => .v4 a
  | .v6 a =>
      match a.mapped? with
      | some mapped => .v4 mapped
      | none => .v6 a

def toText : Ip → String
  | .v4 a => a.toText
  | .v6 a => a.toText

end Ip

structure Socket where
  ip : Ip
  portNumber : UInt16
  deriving DecidableEq, Repr

namespace Reader

/-- Takes a value off the front of a text, or finds none there. -/
abbrev Take (α : Type) := List Char → Option (α × List Char)

def char (c : Char) : Take Unit
  | d :: rest => if d = c then some ((), rest) else none
  | [] => none

/-- A number below `bound`, written in at most `width` digits when a width is given. -/
def number (radix bound : Nat) (width : Option Nat) (leadingZeros : Bool) : Take Nat := fun cs =>
  let digits := cs.takeWhile fun c => (Text.digit? radix c).isSome
  let value := (Text.number? radix digits).getD 0
  if digits = [] then none
  else if bound ≤ value then none
  else if width.any (· < digits.length) then none
  else if !leadingZeros && digits.head? == some '0' && 1 < digits.length then none
  else some (value, cs.drop digits.length)

def octet : Take Nat := number 10 256 (some 3) false

def v4 : Take V4 := fun cs => do
  let (a, cs) ← octet cs
  let (_, cs) ← char '.' cs
  let (b, cs) ← octet cs
  let (_, cs) ← char '.' cs
  let (c, cs) ← octet cs
  let (_, cs) ← char '.' cs
  let (d, cs) ← octet cs
  some (⟨.ofNat (((a * 256 + b) * 256 + c) * 256 + d)⟩, cs)

def group : Take Nat := number 16 65536 (some 4) true

def separated {α : Type} (first : Bool) (r : Take α) : Take α := fun cs =>
  if first then r cs
  else do
    let (_, cs) ← char ':' cs
    r cs

/-- At most `limit` groups; says whether the last two were an IPv4 address. -/
def groups (first : Bool) : Nat → List Char → List UInt16 × Bool × List Char
  | 0, cs => ([], false, cs)
  | limit + 1, cs =>
      match if 1 ≤ limit then separated first v4 cs else none with
      | some (a, cs) => ([.ofNat (a.bits.toNat / 65536), .ofNat a.bits.toNat], true, cs)
      | none =>
          match separated first group cs with
          | none => ([], false, cs)
          | some (g, cs) =>
              let (rest, embedded, cs) := groups false limit cs
              (.ofNat g :: rest, embedded, cs)

def v6 : Take V6 := fun cs => do
  let (front, embedded, cs) := groups true 8 cs
  if h : front.length = 8 then some (⟨⟨front.toArray, by simpa using h⟩⟩, cs)
  else if embedded then none
  else
    let (_, cs) ← char ':' cs
    let (_, cs) ← char ':' cs
    let (back, _, cs) := groups true (7 - front.length) cs
    let all := front ++ List.replicate (8 - front.length - back.length) 0 ++ back
    if h : all.length = 8 then some (⟨⟨all.toArray, by simpa using h⟩⟩, cs) else none

def portNumber : Take Nat := number 10 65536 none true

def scope : Take Unit := fun cs =>
  match char '%' cs with
  | none => some ((), cs)
  | some (_, cs) => do
      let (_, cs) ← number 10 4294967296 none true cs
      some ((), cs)

def socketV4 : Take Socket := fun cs => do
  let (a, cs) ← v4 cs
  let (_, cs) ← char ':' cs
  let (p, cs) ← portNumber cs
  some (⟨.v4 a, .ofNat p⟩, cs)

def socketV6 : Take Socket := fun cs => do
  let (_, cs) ← char '[' cs
  let (a, cs) ← v6 cs
  let (_, cs) ← scope cs
  let (_, cs) ← char ']' cs
  let (_, cs) ← char ':' cs
  let (p, cs) ← portNumber cs
  some (⟨.v6 a, .ofNat p⟩, cs)

/-- The value a whole text denotes. -/
def whole? {α : Type} (r : Take α) (s : String) : Option α :=
  match r s.toList with
  | some (a, []) => some a
  | _ => none

end Reader

def Ip.ofText? (s : String) : Option Ip :=
  (Reader.whole? Reader.v4 s).map .v4 <|> (Reader.whole? Reader.v6 s).map .v6

def Socket.ofText? (s : String) : Option Socket :=
  Reader.whole? Reader.socketV4 s <|> Reader.whole? Reader.socketV6 s

end Throttle.Address
