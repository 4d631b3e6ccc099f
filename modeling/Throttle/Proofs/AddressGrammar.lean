import Mathlib.Data.List.Forall2
import Mathlib.Data.List.Induction
import Mathlib.Tactic.IntervalCases
import Throttle.Address.V4
import Throttle.Proofs.Words

/-!
# The grammar of IPv4 addresses

An address is four octets between dots, and an octet is a numeral of a value up to 255, however long
it is.  The parts of a text are stated without a splitter: they hold no dot, and joined by dots they
give the text back.  A text that is no address is refused for the first cause that applies, and
among its parts for the leftmost that is no octet.
-/

namespace Throttle

/-! ## The parts of a text -/

namespace Text

variable {sep : Char} {cs part rest : List Char} {parts : List (List Char)}

theorem fields_cons_of_ne {c : Char} (hc : c ≠ sep) (h : fields sep cs = part :: parts) :
    fields sep (c :: cs) = (c :: part) :: parts := by
  simp [fields, h, hc]

theorem fields_of_not_mem (h : sep ∉ cs) : fields sep cs = [cs] := by
  induction cs with
  | nil => rfl
  | cons c cs ih =>
      rw [List.mem_cons, not_or] at h
      exact fields_cons_of_ne (Ne.symm h.1) (ih h.2)

theorem fields_append (h : sep ∉ part) (rest : List Char) :
    fields sep (part ++ sep :: rest) = part :: fields sep rest := by
  induction part with
  | nil => exact fields_cons_sep sep rest
  | cons c part ih =>
      rw [List.mem_cons, not_or] at h
      exact fields_cons_of_ne (Ne.symm h.1) (ih h.2)

theorem fields_join (hne : parts ≠ []) (h : ∀ part ∈ parts, sep ∉ part) :
    fields sep (join sep parts) = parts := by
  fun_induction join sep parts with
  | case1 => contradiction
  | case2 part => exact fields_of_not_mem (h part List.mem_cons_self)
  | case3 part rest hrest ih =>
      obtain ⟨hpart, hparts⟩ := List.forall_mem_cons.1 h
      rw [fields_append hpart, ih hrest hparts]

theorem not_mem_of_mem_fields (sep : Char) (cs : List Char) :
    ∀ part ∈ fields sep cs, sep ∉ part := by
  induction cs with
  | nil => simp [fields]
  | cons c cs ih =>
      cases hcs : fields sep cs with
      | nil => exact absurd hcs (fields_ne_nil sep cs)
      | cons first parts =>
          rw [hcs, List.forall_mem_cons] at ih
          by_cases hc : c = sep
          · subst hc
            simpa [fields_cons_sep, hcs] using ih
          · simpa [fields_cons_of_ne hc hcs, Ne.symm hc] using ih

/-- The parts of a text are those without the separator that join to it. -/
theorem fields_eq_iff :
    fields sep cs = parts ↔ parts ≠ [] ∧ join sep parts = cs ∧ ∀ part ∈ parts, sep ∉ part := by
  constructor
  · rintro rfl
    exact ⟨fields_ne_nil sep cs, join_fields sep cs, not_mem_of_mem_fields sep cs⟩
  · rintro ⟨hne, rfl, hparts⟩
    exact fields_join hne hparts

theorem length_fields (sep : Char) (cs : List Char) :
    (fields sep cs).length = cs.count sep + 1 := by
  induction cs with
  | nil => rfl
  | cons c cs ih =>
      cases hcs : fields sep cs with
      | nil => exact absurd hcs (fields_ne_nil sep cs)
      | cons first parts =>
          rw [hcs] at ih
          by_cases hc : c = sep
          · simp [hc, fields_cons_sep, hcs, ih]
          · simpa [fields_cons_of_ne hc hcs, hc] using ih

/-! ## Numerals -/

/-- A run of decimal digits and its value. -/
inductive Numeral : List Char → Nat → Prop where
  | digit {d : Nat} : d < 10 → Numeral [d.digitChar] d
  | snoc {cs : List Char} {n d : Nat} :
      Numeral cs n → d < 10 → Numeral (cs ++ [d.digitChar]) (10 * n + d)

theorem exists_digitChar {c : Char} (h : c.isDigit = true) : ∃ d < 10, c = d.digitChar := by
  have hrange : 48 ≤ c.toNat ∧ c.toNat ≤ 57 := Char.isDigit_iff_toNat.1 h
  refine ⟨c.toNat - 48, by omega, ?_⟩
  obtain ⟨hlow, hhigh⟩ := hrange
  rw [← Char.ofNat_toNat c]
  generalize c.toNat = n at hlow hhigh
  interval_cases n <;> rfl

theorem Numeral.of_digits (hne : cs ≠ []) (hdigits : ∀ c ∈ cs, c.isDigit = true) :
    Numeral cs (Nat.ofDigitChars 10 cs 0) := by
  induction cs using List.reverseRecOn with
  | nil => contradiction
  | append_singleton cs c ih =>
      rw [List.forall_mem_append, List.forall_mem_singleton] at hdigits
      obtain ⟨d, hd, rfl⟩ := exists_digitChar hdigits.2
      rw [Nat.ofDigitChars_append]
      simp only [Nat.ofDigitChars_cons, Nat.ofDigitChars_nil]
      rw [show '0'.toNat = 48 from rfl, Nat.toNat_digitChar_sub_48_of_lt_ten hd]
      by_cases hcs : cs = []
      · subst hcs
        simpa using Numeral.digit hd
      · exact .snoc (ih hcs hdigits.1) hd

theorem numeral_iff {n : Nat} :
    Numeral cs n ↔ cs ≠ [] ∧ (∀ c ∈ cs, c.isDigit = true) ∧ Nat.ofDigitChars 10 cs 0 = n := by
  constructor
  · intro h
    induction h with
    | digit hd =>
        simp [Nat.isDigit_digitChar, hd, Nat.ofDigitChars_cons, Nat.ofDigitChars_nil,
          Nat.toNat_digitChar_sub_48_of_lt_ten]
    | snoc _ hd ih =>
        obtain ⟨-, hdigits, hvalue⟩ := ih
        refine ⟨by simp, ?_, ?_⟩
        · rw [List.forall_mem_append, List.forall_mem_singleton]
          exact ⟨hdigits, by simp [Nat.isDigit_digitChar, hd]⟩
        · simp [Nat.ofDigitChars_append, Nat.ofDigitChars_cons, Nat.ofDigitChars_nil, hvalue,
            Nat.toNat_digitChar_sub_48_of_lt_ten hd]
  · rintro ⟨hne, hdigits, rfl⟩
    exact .of_digits hne hdigits

theorem numeral_toDigits (n : Nat) : Numeral (Nat.toDigits 10 n) n :=
  numeral_iff.2 ⟨Nat.toDigits_ne_nil, fun _ => Nat.isDigit_of_mem_toDigits (by decide) (by decide),
    Nat.ofDigitChars_toDigits (by decide) (by decide)⟩

end Text

namespace Address.V4

variable {s : String} {a : V4} {part : List Char} {parts : List (List Char)} {value high n : Nat}
  {e : ParseError}

/-! ## Octets -/

structure Octet (part : List Char) (value : Nat) : Prop where
  numeral : Text.Numeral part value
  le : value ≤ 255

/-- What keeps a part from being an octet. -/
inductive Malformed (part : List Char) : Prop where
  | empty : part = [] → Malformed part
  | notDigit {c : Char} : c ∈ part → c.isDigit = false → Malformed part
  | tooLarge {value : Nat} : Text.Numeral part value → 255 < value → Malformed part

theorem octet?_of_octet (h : Octet part value) : octet? part = some value := by
  obtain ⟨hne, hdigits, hvalue⟩ := Text.numeral_iff.1 h.numeral
  have hall : part.all Char.isDigit = true := List.all_eq_true.2 hdigits
  simp [octet?, hne, hall, hvalue, h.le]

theorem octet?_of_malformed (h : Malformed part) : octet? part = none := by
  cases h with
  | empty hnil => simp [octet?, hnil]
  | notDigit hmem hc =>
      have hall : part.all Char.isDigit = false := List.all_eq_false.2 ⟨_, hmem, by simp [hc]⟩
      simp [octet?, hall]
  | tooLarge hnumeral hlt =>
      obtain ⟨-, -, hvalue⟩ := Text.numeral_iff.1 hnumeral
      simp only [octet?, hvalue, if_neg (Nat.not_le.2 hlt), ite_self]

theorem octet_or_malformed (part : List Char) : (∃ value, Octet part value) ∨ Malformed part := by
  by_cases hnil : part = []
  · exact .inr (.empty hnil)
  by_cases hdigits : ∀ c ∈ part, c.isDigit = true
  · have hnumeral := Text.Numeral.of_digits hnil hdigits
    rcases Nat.lt_or_ge 255 (Nat.ofDigitChars 10 part 0) with hlt | hle
    · exact .inr (.tooLarge hnumeral hlt)
    · exact .inl ⟨_, hnumeral, hle⟩
  · push Not at hdigits
    obtain ⟨c, hmem, hc⟩ := hdigits
    exact .inr (.notDigit hmem (Bool.eq_false_of_not_eq_true hc))

theorem Octet.not_mem {c : Char} (h : Octet part value) (hc : c.isDigit = false) : c ∉ part := by
  intro hmem
  have hdigit := (Text.numeral_iff.1 h.numeral).2.1 c hmem
  simp [hc] at hdigit

/-! ## Octets one after the other -/

/-- The number that octets spell to the base 256, behind the digits of `high`. -/
def packed (high : Nat) (values : List Nat) : Nat := values.foldl (· * 256 + ·) high

theorem readOctets_of_octets {values : List Nat} (h : List.Forall₂ Octet parts values) :
    readOctets high parts = .ok (packed high values) := by
  induction h generalizing high with
  | nil => rfl
  | cons hhead _ ih =>
      rw [readOctets, octet?_of_octet hhead]
      exact ih

theorem readOctets_of_malformed {before after : List (List Char)} {values : List Nat}
    (hbefore : List.Forall₂ Octet before values) (hpart : Malformed part) :
    readOctets high (before ++ part :: after) = .error (.invalidOctet (.ofList part)) := by
  induction hbefore generalizing high with
  | nil => simp [readOctets, octet?_of_malformed hpart]
  | cons hhead _ ih =>
      rw [List.cons_append, readOctets, octet?_of_octet hhead]
      exact ih

/-- Either all parts are octets, or some part is the leftmost that is none. -/
theorem octets_or_malformed (parts : List (List Char)) :
    (∃ values, List.Forall₂ Octet parts values) ∨ ∃ before values part after,
      parts = before ++ part :: after ∧ List.Forall₂ Octet before values ∧ Malformed part := by
  induction parts with
  | nil => exact .inl ⟨[], .nil⟩
  | cons part parts ih =>
      rcases octet_or_malformed part with ⟨value, hpart⟩ | hpart
      · rcases ih with ⟨values, hvalues⟩ | ⟨before, values, bad, after, rfl, hbefore, hbad⟩
        · exact .inl ⟨_, .cons hpart hvalues⟩
        · exact .inr ⟨part :: before, _, bad, after, rfl, .cons hpart hbefore, hbad⟩
      · exact .inr ⟨[], [], part, parts, rfl, .nil, hpart⟩

/-! ## Texts -/

/-- Four octets between dots, which are the digits of the address to the base 256. -/
inductive Denotes (s : String) (a : V4) : Prop where
  | dotted {p₁ p₂ p₃ p₄ : List Char} {v₁ v₂ v₃ v₄ : Nat} :
      s.toList = p₁ ++ '.' :: p₂ ++ '.' :: p₃ ++ '.' :: p₄ →
      Octet p₁ v₁ → Octet p₂ v₂ → Octet p₃ v₃ → Octet p₄ v₄ →
      a.bits.toNat = ((v₁ * 256 + v₂) * 256 + v₃) * 256 + v₄ → Denotes s a

/-- What a text stands for: an address, or else the first error that applies. -/
inductive Reads (s : String) : Except ParseError V4 → Prop where
  | address {a : V4} : Denotes s a → Reads s (.ok a)
  | empty : s = "" → Reads s (.error .empty)
  | colon : ':' ∈ s.toList → Reads s (.error (.ipv6Unsupported s))
  | count : s ≠ "" → ':' ∉ s.toList → s.toList.count '.' + 1 ≠ 4 →
      Reads s (.error (.octetCount (s.toList.count '.' + 1)))
  | octet {before after : List (List Char)} {values : List Nat} {part : List Char} :
      ':' ∉ s.toList → s.toList.count '.' + 1 = 4 →
      s.toList = Text.join '.' (before ++ part :: after) →
      (∀ p ∈ before ++ part :: after, '.' ∉ p) →
      List.Forall₂ Octet before values → Malformed part →
      Reads s (.error (.invalidOctet (.ofList part)))

theorem parse_of_colon (h : ':' ∈ s.toList) : parse s = .error (.ipv6Unsupported s) := by
  have hne : s.toList ≠ [] := List.ne_nil_of_mem h
  simp [parse, hne, h]

theorem parse_of_count (hne : s ≠ "") (hcolon : ':' ∉ s.toList)
    (hcount : s.toList.count '.' + 1 ≠ 4) :
    parse s = .error (.octetCount (s.toList.count '.' + 1)) := by
  have hnil : s.toList ≠ [] := by simpa using hne
  simp [parse, hnil, hcolon, Text.length_fields, hcount]

theorem parse_of_parts (hcolon : ':' ∉ s.toList) (hcount : s.toList.count '.' + 1 = 4) :
    parse s = (readOctets 0 (Text.fields '.' s.toList)).map fun n => ⟨.ofNat n⟩ := by
  have hnil : s.toList ≠ [] := by
    intro hnil
    simp [hnil] at hcount
  simp only [parse, hnil, hcolon, Text.length_fields, hcount, if_false, ne_eq, not_true_eq_false]
  cases readOctets 0 (Text.fields '.' s.toList) <;> rfl

theorem fields_of_octets {p₁ p₂ p₃ p₄ : List Char} {v₁ v₂ v₃ v₄ : Nat}
    (hs : s.toList = p₁ ++ '.' :: p₂ ++ '.' :: p₃ ++ '.' :: p₄)
    (h₁ : Octet p₁ v₁) (h₂ : Octet p₂ v₂) (h₃ : Octet p₃ v₃) (h₄ : Octet p₄ v₄) :
    Text.fields '.' s.toList = [p₁, p₂, p₃, p₄] := by
  refine Text.fields_eq_iff.2 ⟨by simp, ?_, ?_⟩
  · simp [hs, Text.join]
  · simp [h₁.not_mem, h₂.not_mem, h₃.not_mem, h₄.not_mem]

theorem ext_of_bits {v₁ v₂ v₃ v₄ : Nat}
    (h : a.bits.toNat = ((v₁ * 256 + v₂) * 256 + v₃) * 256 + v₄) :
    a = ⟨.ofNat (packed 0 [v₁, v₂, v₃, v₄])⟩ := by
  obtain ⟨bits⟩ := a
  simp [packed, ← h]

theorem denotes_of_octets {values : List Nat} (hlength : s.toList.count '.' + 1 = 4)
    (h : List.Forall₂ Octet (Text.fields '.' s.toList) values) :
    ∃ a, Denotes s a := by
  have hjoin := Text.join_fields '.' s.toList
  rw [← Text.length_fields] at hlength
  generalize Text.fields '.' s.toList = parts at hjoin hlength h
  obtain ⟨p₁, p₂, p₃, p₄, rfl⟩ := List.length_eq_four.1 hlength
  simp only [List.forall₂_cons_left_iff, List.forall₂_nil_left_iff] at h
  obtain ⟨v₁, _, h₁, ⟨v₂, _, h₂, ⟨v₃, _, h₃, ⟨v₄, _, h₄, rfl, rfl⟩, rfl⟩, rfl⟩, rfl⟩ := h
  refine ⟨⟨.ofNat (((v₁ * 256 + v₂) * 256 + v₃) * 256 + v₄)⟩, .dotted ?_ h₁ h₂ h₃ h₄ ?_⟩
  · simpa [Text.join] using hjoin.symm
  · have hle₁ := h₁.le
    have hle₂ := h₂.le
    have hle₃ := h₃.le
    have hle₄ := h₄.le
    rw [UInt32.toNat_ofNat']
    omega

theorem Denotes.parse_eq (h : Denotes s a) : parse s = .ok a := by
  obtain ⟨hs, h₁, h₂, h₃, h₄, hbits⟩ := h
  have hfields := fields_of_octets hs h₁ h₂ h₃ h₄
  have hcolon : ':' ∉ s.toList := by
    simp [hs, h₁.not_mem, h₂.not_mem, h₃.not_mem, h₄.not_mem]
  have hcount : s.toList.count '.' + 1 = 4 := by
    rw [← Text.length_fields, hfields]
    rfl
  rw [parse_of_parts hcolon hcount, hfields, ext_of_bits hbits,
    readOctets_of_octets (.cons h₁ (.cons h₂ (.cons h₃ (.cons h₄ .nil))))]
  rfl

theorem Reads.parse_eq {outcome : Except ParseError V4} (h : Reads s outcome) :
    parse s = outcome := by
  cases h with
  | address h => exact h.parse_eq
  | empty hs => simp [parse, hs]
  | colon hcolon => exact parse_of_colon hcolon
  | count hne hcolon hcount => exact parse_of_count hne hcolon hcount
  | @octet before after values part hcolon hcount hs hparts hbefore hpart =>
      have hfields : Text.fields '.' s.toList = before ++ part :: after :=
        Text.fields_eq_iff.2 ⟨by simp, hs.symm, hparts⟩
      rw [parse_of_parts hcolon hcount, hfields, readOctets_of_malformed hbefore hpart]
      rfl

theorem exists_reads (s : String) : ∃ outcome, Reads s outcome := by
  by_cases hne : s = ""
  · exact ⟨_, .empty hne⟩
  by_cases hcolon : ':' ∈ s.toList
  · exact ⟨_, .colon hcolon⟩
  by_cases hcount : s.toList.count '.' + 1 = 4
  · rcases octets_or_malformed (Text.fields '.' s.toList) with
      ⟨values, hvalues⟩ | ⟨before, values, part, after, hfields, hbefore, hpart⟩
    · obtain ⟨a, ha⟩ := denotes_of_octets hcount hvalues
      exact ⟨_, .address ha⟩
    · obtain ⟨-, hjoin, hparts⟩ := Text.fields_eq_iff.1 hfields
      exact ⟨_, .octet hcolon hcount hjoin.symm hparts hbefore hpart⟩
  · exact ⟨_, .count hne hcolon hcount⟩

theorem reads_parse (s : String) : Reads s (parse s) := by
  obtain ⟨outcome, h⟩ := exists_reads s
  rwa [h.parse_eq]

theorem parse_eq_ok_iff : parse s = .ok a ↔ Denotes s a := by
  constructor
  · intro h
    have hreads := reads_parse s
    rw [h] at hreads
    cases hreads with
    | address hdenotes => exact hdenotes
  · exact Denotes.parse_eq

/--
The parser gives exactly the outcome that the grammar calls for, an address or the first error that
applies, and it always gives one.
-/
theorem parse_eq_iff (s : String) (outcome : Except ParseError V4) :
    parse s = outcome ↔ Reads s outcome := by
  constructor
  · rintro rfl
    exact reads_parse s
  · exact Reads.parse_eq

/-- Leading zeros do not matter, and the leftmost part that is no octet is named. -/
example : parse "001.2.0003.255" = .ok ⟨0x010203FF⟩ ∧
    parse "1.+2.256.x" = .error (.invalidOctet "+2") := by
  decide +kernel

/-! ## Addresses as text -/

theorem octet_toDigits (h : n ≤ 255) : Octet (Nat.toDigits 10 n) n := ⟨Text.numeral_toDigits n, h⟩

theorem denotes_toText (a : V4) : Denotes a.toText a := by
  have hlt := a.bits.toNat_lt
  refine .dotted ?_ (octet_toDigits (n := a.bits.toNat / 16777216) (by omega))
    (octet_toDigits (n := a.bits.toNat / 65536 % 256) (by omega))
    (octet_toDigits (n := a.bits.toNat / 256 % 256) (by omega))
    (octet_toDigits (n := a.bits.toNat % 256) (by omega)) (by omega)
  simp [toText, octets, Text.join]

theorem Denotes.eq {b : V4} (h : Denotes s a) (h' : Denotes s b) : a = b :=
  Except.ok.inj (h.parse_eq.symm.trans h'.parse_eq)

theorem ofText_of_denotes (h : Denotes s a) : ofText s = a := by
  rw [ofText, h.parse_eq]

theorem ofText_of_not_denotes (h : ¬ ∃ a, Denotes s a) : ofText s = unspecified := by
  rw [ofText]
  cases hs : parse s with
  | ok a => exact absurd ⟨a, parse_eq_ok_iff.1 hs⟩ h
  | error e => rfl

end Address.V4

end Throttle
