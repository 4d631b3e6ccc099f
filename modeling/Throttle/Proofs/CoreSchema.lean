import Throttle.Proofs.Words
import Throttle.Yaml.Schema

/-!
# Numbers and records under the core schema

A number written in decimal digits is read back: it has no leading zero, no sign and no radix that
could make it another number or none.  A mapping with different known keys is read as the record of
its fields.
-/

namespace Throttle

namespace Text

variable {c : Char} {ds : List Char} {n : Nat}

theorem digit?_of_isDigit (h : c.isDigit = true) : digit? 10 c = some (c.toNat - '0'.toNat) := by
  have hc := Char.isDigit_iff_toNat.1 h
  have hle : '0' ≤ c ∧ c ≤ '9' := by
    simp only [Char.le_def, UInt32.le_iff_toNat_le]
    exact hc
  have hlt : c.toNat - '0'.toNat < 10 := by
    have h9 : '9'.toNat = '0'.toNat + 9 := rfl
    omega
  rw [digit?, hexValue?, if_pos hle, Option.filter_some, if_pos (decide_eq_true hlt)]

theorem number?_of_digits (h : ∀ c ∈ ds, c.isDigit = true) :
    number? 10 ds = some (Nat.ofDigitChars 10 ds 0) := by
  suffices hfold : ∀ n, ds.foldlM (fun n c => (digit? 10 c).map (n * 10 + ·)) n =
      some (Nat.ofDigitChars 10 ds n) from hfold 0
  intro n
  induction ds generalizing n with
  | nil => rfl
  | cons c ds ih =>
      obtain ⟨hc, hds⟩ := List.forall_mem_cons.1 h
      rw [List.foldlM_cons, digit?_of_isDigit hc, Nat.ofDigitChars_cons, ← ih hds, Nat.mul_comm]
      rfl

theorem head?_toDigits (h : n ≠ 0) : (Nat.toDigits 10 n).head? ≠ some '0' := by
  induction n using Nat.strongRecOn with
  | _ n ih =>
      rw [Nat.toDigits_eq_if (by decide)]
      split
      next hlt =>
        have hchar : ∀ m < 10, m ≠ 0 → m.digitChar ≠ '0' := by decide
        simpa using hchar n hlt h
      next hle =>
        have hhead := ih (n / 10) (by omega) (by omega)
        obtain ⟨c, cs, hcs, -⟩ := exists_toDigits_eq_cons (n / 10)
        rwa [hcs] at hhead ⊢

end Text

namespace Yaml

open Text

theorem isZeroPadded_toDigits (n : Nat) : isZeroPadded (Nat.toDigits 10 n) = false := by
  by_cases hn : n = 0
  · rw [hn]
    rfl
  · have hhead := head?_toDigits hn
    unfold isZeroPadded
    split
    next heq => simp [heq] at hhead
    next => rfl

theorem digits?_toDigits {n : Nat} (h : n < 2 ^ 64) :
    digits? 10 (Nat.toDigits 10 n) = some n := by
  have hne : (Nat.toDigits 10 n).isEmpty = false := by simp
  have hsize : n < UInt64.size := h
  rw [digits?, hne, number?_of_digits fun _ => isDigit_of_mem_toDigits,
    Nat.ofDigitChars_ten_toDigits]
  simp [hsize]

theorem radix?_of_digits {ds : List Char} (h : ∀ c ∈ ds, c.isDigit = true) : radix? ds = none := by
  unfold radix?
  split
  case h_4 => rfl
  all_goals simp at h

theorem word?_toDigits {n : Nat} (h : n < 2 ^ 64) :
    word? (.ofList (Nat.toDigits 10 n)) = some n := by
  have hpadded := isZeroPadded_toDigits n
  have hvalue := digits?_toDigits h
  obtain ⟨c, cs, hcs, hdigits⟩ := exists_toDigits_eq_cons n
  rw [hcs] at hpadded hvalue
  have hradix := radix?_of_digits (List.forall_mem_cons.2 hdigits)
  have hsign : c ≠ '+' := by
    rintro rfl
    simp at hdigits
  simp [word?, hcs, hsign, hradix, hpadded, hvalue]

theorem not_null_toDigits (n : Nat) :
    (String.ofList (Nat.toDigits 10 n)).isEmpty = false ∧
      isNullWord (.ofList (Nat.toDigits 10 n)) = false := by
  have hne : ∀ s : String, s.toList.head?.any Char.isDigit = false →
      String.ofList (Nat.toDigits 10 n) ≠ s := by
    rintro s hs rfl
    obtain ⟨c, cs, hcs, hdigit, -⟩ := exists_toDigits_eq_cons n
    rw [String.toList_ofList, hcs, List.head?_cons, Option.any_some, hdigit] at hs
    contradiction
  constructor
  · simp
  · simp [isNullWord, hne "null" (by decide), hne "Null" (by decide), hne "NULL" (by decide),
      hne "~" (by decide)]

/-! ## Records -/

/-- A mapping of fields with plain names. -/
def Node.record (fields : List (String × Node)) : Node :=
  .mapping (fields.map fun f => (.scalar f.1 .plain none, f.2))

theorem mapM_map_eq_some {α β : Type} {f : β → Option α} {g : α → β} (h : ∀ a, f (g a) = some a)
    (l : List α) : (l.map g).mapM f = some l := by
  induction l with
  | nil => rfl
  | cons a l ih =>
      rw [List.map_cons, List.mapM_cons, h, ih]
      rfl

theorem Document.fields?_record {d : Document} {known : List String} {fields : List (String × Node)}
    (hknown : ∀ f ∈ fields, f.1 ∈ known) (hnodup : (fields.map (·.1)).Nodup) :
    d.fields? known (.record fields) = some fields := by
  have hentries : d.entries? (.record fields) =
      some (fields.map fun f => (Node.scalar f.1 .plain none, f.2)) := rfl
  have hkeep : fields.filter (fun f => known.contains f.1) = fields :=
    List.filter_eq_self.2 fun f hf => List.contains_iff_mem.2 (hknown f hf)
  have honce : known.all (fun name => (fields.filter (·.1 = name)).length ≤ 1) = true := by
    refine List.all_eq_true.2 fun name _ => decide_eq_true ?_
    have hcount := List.nodup_iff_count.1 hnodup name
    rw [List.count, List.countP_map, List.countP_eq_length_filter] at hcount
    exact hcount
  rw [fields?, hentries]
  simp only [Option.bind_eq_bind, Option.bind_some]
  rw [mapM_map_eq_some, Option.bind_some, hkeep, if_pos honce]
  exact fun _ => rfl

end Yaml

end Throttle
