import Mathlib.Data.Nat.Digits.Defs
import Throttle.Text.Blank
import Throttle.Text.Fields

/-!
# Words of ASCII letters and digits

Names, numbers and the amounts of durations are written as such words, with single spaces between
them.  No letter or digit has a meaning of its own to a reader, so a word is read as it stands.
-/

namespace Throttle.Text

variable {c : Char} {n : Nat}

theorem toNat_of_isAlpha (h : c.isAlpha = true) :
    (65 ≤ c.toNat ∧ c.toNat ≤ 90) ∨ (97 ≤ c.toNat ∧ c.toNat ≤ 122) := by
  rcases Bool.or_eq_true_iff.1 h with hupper | hlower
  · have hrange : 'A'.val ≤ c.val ∧ c.val ≤ 'Z'.val := of_decide_eq_true hupper
    exact .inl hrange
  · obtain ⟨hlow, hhigh⟩ := Bool.and_eq_true_iff.1 hlower
    exact .inr ⟨of_decide_eq_true hlow, of_decide_eq_true hhigh⟩

theorem isAlphanum_of_isAlpha (h : c.isAlpha = true) : c.isAlphanum = true := by
  rw [Char.isAlphanum, h, Bool.true_or]

theorem isAlphanum_of_isDigit (h : c.isDigit = true) : c.isAlphanum = true := by
  rw [Char.isAlphanum, h, Bool.or_true]

theorem toNat_of_isAlphanum (h : c.isAlphanum = true) :
    48 ≤ c.toNat ∧ c.toNat ≤ 57 ∨ 65 ≤ c.toNat ∧ c.toNat ≤ 90 ∨ 97 ≤ c.toNat ∧ c.toNat ≤ 122 := by
  rcases Bool.or_eq_true_iff.1 h with hc | hc
  · exact .inr (toNat_of_isAlpha hc)
  · exact .inl (Char.isDigit_iff_toNat.1 hc)

theorem isDigit_of_isAlpha (h : c.isAlpha = true) : c.isDigit = false := by
  have hc := toNat_of_isAlpha h
  rw [← Bool.not_eq_true, Char.isDigit_iff_toNat]
  have h0 : '0'.toNat = 48 := rfl
  have h9 : '9'.toNat = 57 := rfl
  omega

theorem isBlank_of_isAlphanum (h : c.isAlphanum = true) : isBlank c = false := by
  have hc := toNat_of_isAlphanum h
  simp only [isBlank, blankRanges, List.any_cons, List.any_nil, Bool.or_false, ← Bool.not_eq_true,
    Bool.or_eq_true, Bool.and_eq_true, decide_eq_true_eq]
  omega

theorem utf8Size_of_isAlphanum (h : c.isAlphanum = true) : c.utf8Size = 1 := by
  have hc := toNat_of_isAlphanum h
  rw [Char.utf8Size_eq_one_iff, UInt32.le_iff_toNat_le]
  change c.toNat ≤ 127
  omega

theorem ne_of_isAlphanum (h : c.isAlphanum = true) {d : Char} (hd : d.isAlphanum = false) :
    c ≠ d := by
  rintro rfl
  simp [hd] at h

/-! ## Words -/

structure IsWord (w : List Char) : Prop where
  ne_nil : w ≠ []
  alphanum : ∀ c ∈ w, c.isAlphanum = true

-- Through `all`: a quantifier over characters may be decided by trying every character there is.
instance (w : List Char) : Decidable (IsWord w) :=
  decidable_of_iff (w.isEmpty = false ∧ w.all Char.isAlphanum = true)
    ⟨fun h => ⟨List.isEmpty_eq_false_iff.1 h.1, List.all_eq_true.1 h.2⟩,
      fun h => ⟨List.isEmpty_eq_false_iff.2 h.ne_nil, List.all_eq_true.2 h.alphanum⟩⟩

theorem isDigit_of_mem_toDigits (h : c ∈ Nat.toDigits 10 n) : c.isDigit = true :=
  Nat.isDigit_of_mem_toDigits (by decide) (by decide) h

theorem exists_toDigits_eq_cons (n : Nat) :
    ∃ c cs, Nat.toDigits 10 n = c :: cs ∧ c.isDigit = true ∧ ∀ d ∈ cs, d.isDigit = true := by
  obtain ⟨c, cs, hcs⟩ := List.exists_cons_of_ne_nil (Nat.toDigits_ne_nil (n := n) (b := 10))
  have hdigits : ∀ d ∈ c :: cs, d.isDigit = true := fun d hd => isDigit_of_mem_toDigits (hcs ▸ hd)
  exact ⟨c, cs, hcs, List.forall_mem_cons.1 hdigits⟩

theorem isWord_toDigits (n : Nat) : IsWord (Nat.toDigits 10 n) :=
  ⟨Nat.toDigits_ne_nil, fun _ hc => isAlphanum_of_isDigit (isDigit_of_mem_toDigits hc)⟩

theorem IsWord.append {w w' : List Char} (h : IsWord w) (h' : IsWord w') : IsWord (w ++ w') :=
  ⟨List.append_ne_nil_of_left_ne_nil h.ne_nil w',
    List.forall_mem_append.2 ⟨h.alphanum, h'.alphanum⟩⟩

theorem join_cons_cons (sep : Char) (w w' : List Char) (ws : List (List Char)) :
    join sep (w :: w' :: ws) = w ++ sep :: join sep (w' :: ws) :=
  rfl

theorem mem_join {sep : Char} {ws : List (List Char)} (h : c ∈ join sep ws) :
    c = sep ∨ ∃ w ∈ ws, c ∈ w := by
  fun_induction join sep ws with
  | case1 => simp at h
  | case2 w => exact .inr ⟨w, List.mem_singleton_self w, h⟩
  | case3 w rest _ ih =>
      simp only [List.mem_append, List.mem_cons] at h
      rcases h with h | h | h
      · exact .inr ⟨w, List.mem_cons_self, h⟩
      · exact .inl h
      · rcases ih h with rfl | ⟨w', hw', hc⟩
        · exact .inl rfl
        · exact .inr ⟨w', List.mem_cons_of_mem _ hw', hc⟩

theorem length_le_join (sep : Char) (w : List Char) (ws : List (List Char)) :
    w.length ≤ (join sep (w :: ws)).length := by
  cases ws <;> simp [join]

/-- Text made of words with single spaces between them. -/
structure IsWords (text : List Char) (words : List (List Char)) : Prop where
  ne_nil : words ≠ []
  word : ∀ w ∈ words, IsWord w
  text_eq : text = join ' ' words

namespace IsWords

variable {text : List Char} {words : List (List Char)}

theorem length_le (h : IsWords text words) : words.length ≤ text.length := by
  obtain ⟨-, hwords, rfl⟩ := h
  fun_induction join ' ' words with
  | case1 => simp
  | case2 w =>
      have hlength := List.length_pos_iff.2 (hwords w List.mem_cons_self).ne_nil
      rwa [List.length_singleton, Nat.one_le_iff_ne_zero, ← Nat.pos_iff_ne_zero]
  | case3 w rest _ ih =>
      obtain ⟨hw, hrest⟩ := List.forall_mem_cons.1 hwords
      have hlength := ih hrest
      simp only [List.length_append, List.length_cons]
      omega

theorem exists_head (h : IsWords text words) :
    ∃ c rest, text = c :: rest ∧ c.isAlphanum = true := by
  obtain ⟨hne, hwords, rfl⟩ := h
  obtain ⟨w, ws, rfl⟩ := List.exists_cons_of_ne_nil hne
  have hw := hwords w List.mem_cons_self
  obtain ⟨c, cs, rfl⟩ := List.exists_cons_of_ne_nil hw.ne_nil
  cases ws with
  | nil => exact ⟨c, cs, rfl, hw.alphanum c List.mem_cons_self⟩
  | cons w' ws =>
      rw [join_cons_cons]
      exact ⟨c, _, rfl, hw.alphanum c List.mem_cons_self⟩

end IsWords

theorem IsWord.isWords {w : List Char} (h : IsWord w) : IsWords w [w] :=
  ⟨by simp, by simpa using h, rfl⟩

end Throttle.Text
