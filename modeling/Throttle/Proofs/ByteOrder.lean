import Mathlib.Data.List.Induction
import Mathlib.Data.String.Basic
import Throttle.Ascending

/-!
# Texts in the order of their bytes

A character of more than one byte is written as a leading byte and continuation bytes of six bits
each, the most significant first.  The leading byte never falls as the code point grows, and where
it stays the continuation bytes are as many and hold the rest, so the order of code points is the
order of bytes.  A list that is sorted by insertion ascends in that order, each text once.
-/

namespace Throttle

/-! ## Insertion -/

namespace Ascending

variable {α : Type} {cmp : α → α → Ordering} {a b : α} {l : List α}

theorem mem_insert [Std.LawfulEqCmp cmp] : b ∈ insert cmp a l ↔ b = a ∨ b ∈ l := by
  induction l with
  | nil => simp [insert]
  | cons c rest ih =>
      rw [insert]
      cases hcmp : cmp a c with
      | lt => rw [List.mem_cons]
      | eq =>
          obtain rfl := Std.LawfulEqCmp.eq_of_compare hcmp
          simp
      | gt =>
          simp only [List.mem_cons, ih]
          tauto

theorem pairwise_insert [Std.TransCmp cmp] [Std.LawfulEqCmp cmp]
    (h : l.Pairwise (cmp · · = .lt)) : (insert cmp a l).Pairwise (cmp · · = .lt) := by
  induction l with
  | nil => exact List.pairwise_singleton _ a
  | cons c rest ih =>
      obtain ⟨hhead, htail⟩ := List.pairwise_cons.1 h
      rw [insert]
      cases hcmp : cmp a c with
      | lt =>
          refine List.pairwise_cons.2 ⟨?_, h⟩
          exact List.forall_mem_cons.2 ⟨hcmp, fun b hb => Std.TransCmp.lt_trans hcmp (hhead b hb)⟩
      | eq => exact h
      | gt =>
          refine List.pairwise_cons.2 ⟨?_, ih htail⟩
          intro b hb
          rcases mem_insert.1 hb with rfl | hb
          · exact Std.OrientedCmp.gt_iff_lt.1 hcmp
          · exact hhead b hb

theorem mem_ofList [Std.LawfulEqCmp cmp] {as : List α} : a ∈ ofList cmp as ↔ a ∈ as := by
  induction as using List.reverseRecOn with
  | nil => rfl
  | append_singleton as b ih =>
      rw [ofList, List.foldl_append, List.foldl_cons, List.foldl_nil, mem_insert, ← ofList, ih,
        List.mem_append, List.mem_singleton, or_comm]

theorem pairwise_ofList [Std.TransCmp cmp] [Std.LawfulEqCmp cmp] (as : List α) :
    (ofList cmp as).Pairwise (cmp · · = .lt) := by
  induction as using List.reverseRecOn with
  | nil => exact .nil
  | append_singleton as b ih =>
      rw [ofList, List.foldl_append]
      exact pairwise_insert ih

end Ascending

/-! ## Bytes of a text -/

namespace Text

variable {m n : Nat} {c d : Char} {s t : String}

def bytes (s : String) : List UInt8 := s.toUTF8.data.toList

/-- The leading byte of the character with code point `n`. -/
def leadingByte (n : Nat) : Nat :=
  if n ≤ 127 then n
  else if n ≤ 2047 then n / 64 % 32 + 192
  else if n ≤ 65535 then n / 4096 % 16 + 224
  else n / 262144 % 8 + 240

/-- The number of bytes behind the leading one. -/
def continuationLength (n : Nat) : Nat :=
  if n ≤ 127 then 0 else if n ≤ 2047 then 1 else if n ≤ 65535 then 2 else 3

/-- The last `k` bytes of the character with code point `n`. -/
def continuation (n : Nat) : Nat → List UInt8
  | 0 => []
  | k + 1 => .ofNat (n / 64 ^ k % 64 + 128) :: continuation n k

theorem utf8EncodeChar_eq (c : Char) : String.utf8EncodeChar c =
    .ofNat (leadingByte c.toNat) :: continuation c.toNat (continuationLength c.toNat) := by
  unfold String.utf8EncodeChar leadingByte continuationLength Char.toNat
  simp only
  split_ifs <;> simp [continuation]

theorem leadingByte_lt (n : Nat) : leadingByte n < 256 := by
  unfold leadingByte
  split_ifs <;> omega

theorem toNat_lt (c : Char) : c.toNat < 1114112 := by
  rcases c.valid with h | h
  · exact Nat.lt_trans h (by decide)
  · exact h.2

theorem leadingByte_lt_or (hmn : m < n) (hn : n < 1114112) :
    leadingByte m < leadingByte n ∨
      leadingByte m = leadingByte n ∧ continuationLength m = continuationLength n ∧
        m % 64 ^ continuationLength n < n % 64 ^ continuationLength n := by
  unfold leadingByte continuationLength
  split_ifs <;> omega

theorem ofNat_lt_ofNat (h : m < n) (hn : n < 256) : UInt8.ofNat m < UInt8.ofNat n := by
  rw [UInt8.lt_iff_toNat_lt, UInt8.toNat_ofNat', UInt8.toNat_ofNat']
  omega

theorem continuation_lt {k : Nat} (h : m % 64 ^ k < n % 64 ^ k) (x y : List UInt8) :
    continuation m k ++ x < continuation n k ++ y := by
  induction k with
  | zero => omega
  | succ k ih =>
      rw [Nat.mod_pow_succ, Nat.mod_pow_succ] at h
      rcases Nat.lt_trichotomy (m / 64 ^ k % 64) (n / 64 ^ k % 64) with hlt | heq | hgt
      · exact .rel (ofNat_lt_ofNat (by omega) (by omega))
      · rw [continuation, continuation, heq]
        exact .cons (ih (by rw [heq] at h; omega))
      · -- Six bits that are larger outweigh all that come behind them.
        have hle := Nat.mul_le_mul_left (64 ^ k) hgt
        have hmod := Nat.mod_lt n (Nat.pow_pos (n := k) (show 0 < 64 by decide))
        rw [Nat.mul_succ] at hle
        omega

theorem utf8EncodeChar_lt (h : c < d) (x y : List UInt8) :
    String.utf8EncodeChar c ++ x < String.utf8EncodeChar d ++ y := by
  have hlt : c.toNat < d.toNat := UInt32.lt_iff_toNat_lt.1 h
  rw [utf8EncodeChar_eq, utf8EncodeChar_eq, List.cons_append, List.cons_append]
  rcases leadingByte_lt_or hlt (toNat_lt d) with hlead | ⟨hlead, hlength, hrest⟩
  · exact .rel (ofNat_lt_ofNat hlead (leadingByte_lt _))
  · rw [hlead, hlength]
    exact .cons (continuation_lt hrest x y)

theorem flatMap_utf8EncodeChar_lt {cs ds : List Char} (h : cs < ds) :
    cs.flatMap String.utf8EncodeChar < ds.flatMap String.utf8EncodeChar := by
  induction h with
  | nil =>
      rw [List.flatMap_cons, utf8EncodeChar_eq]
      exact .nil
  | rel h => exact utf8EncodeChar_lt h _ _
  | cons _ ih => exact List.Lex.append_left _ ih _

theorem bytes_eq (s : String) : bytes s = s.toList.flatMap String.utf8EncodeChar := by
  rw [bytes, String.toUTF8, ← String.ofList_toList (s := s), String.toByteArray_ofList,
    String.toList_ofList, List.utf8Encode, List.toList_data_toByteArray]

theorem bytes_lt (h : s < t) : bytes s < bytes t := by
  rw [bytes_eq, bytes_eq]
  exact flatMap_utf8EncodeChar_lt (String.lt_iff_toList_lt.1 h)

theorem pairwise_bytes (texts : List String) :
    (Ascending.ofList compare texts).Pairwise (bytes · < bytes ·) :=
  (Ascending.pairwise_ofList texts).imp fun h => bytes_lt (compare_lt_iff_lt.1 h)

end Text

end Throttle
