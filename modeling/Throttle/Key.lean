import Throttle.Address.V4

/-!
Keys that visits are counted under.

Texts, signed and unsigned numbers and addresses are different keys even where they read alike, and
a composite key joins several parts. `Key.compare` orders keys by kind and then by value; a
composite compares part by part, a shorter one first.
-/

namespace Throttle

inductive Key where
  | text (s : String)
  | int (n : Int64)
  | uint (n : UInt64)
  | ip (a : Address.V4)
  | composite (parts : List Key)
  deriving Repr

namespace Key

mutual

def beq : Key → Key → Bool
  | .text s, .text t => s == t
  | .int m, .int n => m == n
  | .uint m, .uint n => m == n
  | .ip a, .ip b => a == b
  | .composite ks, .composite ls => beqList ks ls
  | _, _ => false

def beqList : List Key → List Key → Bool
  | [], [] => true
  | k :: ks, l :: ls => beq k l && beqList ks ls
  | _, _ => false

end

mutual

theorem beq_iff : ∀ {k l : Key}, beq k l = true ↔ k = l
  | .text _, .text _ => by simp [beq]
  | .int _, .int _ => by simp [beq]
  | .uint _, .uint _ => by simp [beq]
  | .ip _, .ip _ => by simp [beq]
  | .composite ks, .composite ls => by simp [beq, @beqList_iff ks ls]
  | .text _, .int _ | .text _, .uint _ | .text _, .ip _ | .text _, .composite _
  | .int _, .text _ | .int _, .uint _ | .int _, .ip _ | .int _, .composite _
  | .uint _, .text _ | .uint _, .int _ | .uint _, .ip _ | .uint _, .composite _
  | .ip _, .text _ | .ip _, .int _ | .ip _, .uint _ | .ip _, .composite _
  | .composite _, .text _ | .composite _, .int _ | .composite _, .uint _
  | .composite _, .ip _ => by simp [beq]

theorem beqList_iff : ∀ {ks ls : List Key}, beqList ks ls = true ↔ ks = ls
  | [], [] => by simp [beqList]
  | [], _ :: _ => by simp [beqList]
  | _ :: _, [] => by simp [beqList]
  | k :: ks, l :: ls => by simp [beqList, @beq_iff k l, @beqList_iff ks ls]

end

instance : DecidableEq Key := fun _ _ => decidable_of_iff _ beq_iff

/-- The place of a kind in the order of keys. -/
def rank : Key → Nat
  | .text _ => 0
  | .int _ => 1
  | .uint _ => 2
  | .ip _ => 3
  | .composite _ => 4

mutual

def compare : Key → Key → Ordering
  | .text s, .text t => Ord.compare s t
  | .int m, .int n => Ord.compare m n
  | .uint m, .uint n => Ord.compare m n
  | .ip a, .ip b => Ord.compare a.bits b.bits
  | .composite ks, .composite ls => compareList ks ls
  | k, l => Ord.compare k.rank l.rank

def compareList : List Key → List Key → Ordering
  | [], [] => .eq
  | [], _ :: _ => .lt
  | _ :: _, [] => .gt
  | k :: ks, l :: ls => (compare k l).then (compareList ks ls)

end

mutual

/-- A composite key shows its parts between bars. -/
def toText : Key → String
  | .text s => s
  | .int n => toString n.toInt
  | .uint n => toString n.toNat
  | .ip a => a.toText
  | .composite parts => joinTexts parts

def joinTexts : List Key → String
  | [] => ""
  | [k] => toText k
  | k :: ks => toText k ++ "|" ++ joinTexts ks

end

mutual

/-- The text for diagnostics, which tells the kinds apart. -/
def describe : Key → String
  | .text s => "Text(" ++ Text.quoted s ++ ")"
  | .int n => "Int(" ++ toString n.toInt ++ ")"
  | .uint n => "Uint(" ++ toString n.toNat ++ ")"
  | .ip a => "Ip(" ++ a.toText ++ ")"
  | .composite parts => "Composite([" ++ describeList parts ++ "])"

def describeList : List Key → String
  | [] => ""
  | [k] => describe k
  | k :: ks => describe k ++ ", " ++ describeList ks

end

/-- The width and sign of a machine integer. -/
inductive IntType where
  | i8 | i16 | i32 | i64
  | u8 | u16 | u32 | u64 | usize
  deriving DecidableEq, Repr

/-- The key of a machine integer: signed and unsigned ones are widened within their kind. -/
def ofInt (type : IntType) (n : Int) : Key :=
  match type with
  | .i8 | .i16 | .i32 | .i64 => .int (.ofInt n)
  | .u8 | .u16 | .u32 | .u64 | .usize => .uint (.ofNat n.toNat)

end Key

end Throttle
