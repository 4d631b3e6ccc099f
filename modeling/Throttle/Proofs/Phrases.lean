import Throttle.Duration.Lemmas
import Throttle.Duration.Phrase
import Throttle.Proofs.Words

/-!
# A written duration reads back

`toPhrase` takes a duration apart into nine amounts and leaves out the zeros; `ofPhrase` adds up
whatever amounts it finds, with every sum checked.  The sums on the way are parts of the duration
itself, so no check fails, and the amounts come to the duration again because every remainder is
divided by the next smaller unit.
-/

namespace Throttle

namespace TimeUnit

def Size.toNanos : Size → Nat
  | .nanos n => n
  | .secs n => n * 1000000000

end TimeUnit

namespace Duration

namespace Phrase

variable {d : Duration} {n value : Nat} {rest : List Char} {phase : Phase}

/-! ## Sums -/

theorem word_eq (h : n < 2 ^ 64) : word n = .ok n := if_pos h

theorem add_secs (h : d.toNanos + n * 1000000000 < 2 ^ 64 * 1000000000) :
    add d (.secs n) = .ok (ofNanos (d.toNanos + n * 1000000000)) := by
  have hsecs : d.secs.toNat + n < 2 ^ 64 := by
    rw [toNanos] at h
    omega
  rw [add, word_eq hsecs]
  apply congrArg Except.ok
  apply toNanos_injective
  rw [toNanos_ofNanos h]
  simp only [toNanos, UInt64.toNat_ofNat', Nat.mod_eq_of_lt hsecs]
  omega

theorem add_nanos (h : d.toNanos + n < 2 ^ 64 * 1000000000) (hn : n < 1000000000) :
    add d (.nanos n) = .ok (ofNanos (d.toNanos + n)) := by
  have hnanos := d.nanos.isLt
  have hsecs : d.secs.toNat + (d.nanos + n) / 1000000000 < 2 ^ 64 := by
    rw [toNanos] at h
    omega
  rw [add, word_eq (by omega)]
  change (word (d.secs.toNat + (d.nanos + n) / 1000000000) >>= fun secs => _) = _
  rw [word_eq hsecs]
  apply congrArg Except.ok
  apply toNanos_injective
  rw [toNanos_ofNanos h]
  simp only [toNanos, ofNanos, Fin.ofNat, UInt64.toNat_ofNat', Nat.mod_eq_of_lt hsecs]
  omega

theorem add_eq {size : TimeUnit.Size} (h : d.toNanos + size.toNanos < 2 ^ 64 * 1000000000)
    (hsmall : ∀ n, size = .nanos n → n < 1000000000) :
    add d size = .ok (ofNanos (d.toNanos + size.toNanos)) := by
  cases size with
  | nanos n => exact add_nanos h (hsmall n rfl)
  | secs n => exact add_secs h

theorem times_eq {size : TimeUnit.Size} (h : value * size.toNanos < 2 ^ 64 * 1000000000)
    (hsmall : ∀ n, size = .nanos n → value * n < 1000000000) :
    ∃ size', times value size = .ok size' ∧ size'.toNanos = value * size.toNanos ∧
      ∀ n, size' = .nanos n → n < 1000000000 := by
  cases size with
  | nanos n =>
      have hn := hsmall n rfl
      refine ⟨.nanos (value * n), ?_, rfl, ?_⟩
      · rw [times, word_eq (by omega)]
        rfl
      · rintro _ ⟨rfl⟩
        exact hn
  | secs n =>
      rw [TimeUnit.Size.toNanos, ← Nat.mul_assoc] at h
      refine ⟨.secs (value * n), ?_, Nat.mul_assoc _ _ _, by simp⟩
      rw [times, word_eq (by omega)]
      rfl

/-! ## Amounts -/

/-- A name of a unit, in ASCII letters. -/
structure Names (name : String) (unit : TimeUnit) : Prop where
  ofName?_eq : TimeUnit.ofName? name.toList = some unit
  ne_nil : name.toList ≠ []
  alpha : ∀ c ∈ name.toList, c.isAlpha = true

instance (name : String) (unit : TimeUnit) : Decidable (Names name unit) :=
  decidable_of_iff (TimeUnit.ofName? name.toList = some unit ∧ name.toList.isEmpty = false ∧
      name.toList.all Char.isAlpha = true)
    ⟨fun h => ⟨h.1, List.isEmpty_eq_false_iff.1 h.2.1, List.all_eq_true.1 h.2.2⟩,
      fun h => ⟨h.ofName?_eq, List.isEmpty_eq_false_iff.2 h.ne_nil, List.all_eq_true.2 h.alpha⟩⟩

/-- An amount of a unit; of nanoseconds it makes less than a second. -/
structure Counts (amount : Nat × String) (unit : TimeUnit) : Prop where
  names : Names amount.2 unit
  small : ∀ n, unit.size = .nanos n → amount.1 * n < 1000000000

variable {amount : Nat × String} {unit : TimeUnit}

theorem Counts.addAmount (h : Counts amount unit)
    (hfits : d.toNanos + amount.1 * unit.size.toNanos < 2 ^ 64 * 1000000000) :
    addAmount d amount.1 none amount.2.toList.reverse =
      .ok (ofNanos (d.toNanos + amount.1 * unit.size.toNanos)) := by
  obtain ⟨size, htimes, hsize, hsmall⟩ := times_eq (by omega) h.small
  rw [← hsize] at hfits ⊢
  rw [Phrase.addAmount, List.reverse_reverse, h.names.ofName?_eq]
  simp only [htimes]
  change (add d size >>= fun d => _) = _
  rw [add_eq hfits hsmall]
  rfl

/-! ## Reading -/

theorem read_cons (offset : Nat) (c : Char) :
    read offset d phase (c :: rest) =
      (step offset c d phase >>= fun r => read (offset + c.utf8Size) r.1 r.2 rest) :=
  rfl

theorem le_ofDigitChars (ds : List Char) (n : Nat) : n ≤ Nat.ofDigitChars 10 ds n := by
  induction ds generalizing n with
  | nil => exact Nat.le_refl n
  | cons c ds ih =>
      rw [Nat.ofDigitChars_cons]
      have hle := ih (10 * n + (c.toNat - '0'.toNat))
      omega

theorem read_digits (d : Duration) (rest : List Char) {ds : List Char}
    (hds : ∀ c ∈ ds, c.isDigit = true) (hfits : Nat.ofDigitChars 10 ds value < 2 ^ 64)
    (offset : Nat) :
    ∃ offset', read offset d (.whole value) (ds ++ rest) =
      read offset' d (.whole (Nat.ofDigitChars 10 ds value)) rest := by
  induction ds generalizing offset value with
  | nil => exact ⟨offset, rfl⟩
  | cons c ds ih =>
      obtain ⟨hc, hds⟩ := List.forall_mem_cons.1 hds
      rw [Nat.ofDigitChars_cons] at hfits ⊢
      have hle := le_ofDigitChars ds (10 * value + (c.toNat - '0'.toNat))
      have hword : word (value * 10 + digit c) = .ok (10 * value + (c.toNat - '0'.toNat)) := by
        rw [Nat.mul_comm, digit, word_eq (by omega)]
      have hstep : step offset c d (.whole value) =
          .ok (d, .whole (10 * value + (c.toNat - '0'.toNat))) := by
        simp only [step, hc, hword, if_true]
        rfl
      rw [List.cons_append, read_cons, hstep]
      exact ih hds hfits _

theorem read_letters (d : Duration) (value : Nat) (letters rest : List Char) {cs : List Char}
    (hcs : ∀ c ∈ cs, c.isAlpha = true) (offset : Nat) :
    ∃ offset', read offset d (.unit value none letters) (cs ++ rest) =
      read offset' d (.unit value none (cs.reverse ++ letters)) rest := by
  induction cs generalizing offset letters with
  | nil => exact ⟨offset, rfl⟩
  | cons c cs ih =>
      obtain ⟨hc, hcs⟩ := List.forall_mem_cons.1 hcs
      have hblank := Text.isBlank_of_isAlphanum (Text.isAlphanum_of_isAlpha hc)
      have hstep : step offset c d (.unit value none letters) =
          .ok (d, .unit value none (c :: letters)) := by
        simp [step, Text.isDigit_of_isAlpha hc, hblank, isLetter, hc]
      rw [List.cons_append, read_cons, hstep, List.reverse_cons, List.append_assoc]
      exact ih _ hcs _

/-- Where the reading of an amount may start. -/
def Phase.Open : Phase → Prop
  | .start | .between _ => True
  | _ => False

/-- An amount is read up to its unit, which the blank or the end behind it completes. -/
theorem read_amount (d : Duration) (rest : List Char) {amount : Nat × String} {unit : TimeUnit}
    (h : Counts amount unit) (hword : amount.1 < 2 ^ 64) (hphase : phase.Open) (offset : Nat) :
    ∃ offset', read offset d phase (amountText amount ++ rest) =
      read offset' d (.unit amount.1 none amount.2.toList.reverse) rest := by
  obtain ⟨n, name⟩ := amount
  obtain ⟨c, ds, hds, hdigits⟩ := Text.exists_toDigits_eq_cons n
  obtain ⟨l, ls, hls⟩ := List.exists_cons_of_ne_nil h.names.ne_nil
  have hvalue : Nat.ofDigitChars 10 (Nat.toDigits 10 n) 0 = n := Nat.ofDigitChars_ten_toDigits
  have hletters := h.names.alpha
  rw [hds, Nat.ofDigitChars_cons, Nat.mul_zero, Nat.zero_add] at hvalue
  rw [hls, List.forall_mem_cons] at hletters
  have hfirst : step offset c d phase = .ok (d, .whole (digit c)) := by
    cases phase with
    | start => simp [step, step.first, hdigits.1]
    | between => simp [step, step.first, hdigits.1]
    | _ => exact hphase.elim
  have hblank := Text.isBlank_of_isAlphanum (Text.isAlphanum_of_isAlpha hletters.1)
  have hunit : ∀ offset, step offset l d (.whole n) = .ok (d, .unit n none [l]) := by
    intro offset
    simp [step, Text.isDigit_of_isAlpha hletters.1, hblank, isLetter, hletters.1]
  obtain ⟨offset₁, hnumber⟩ := read_digits d ((l :: ls) ++ rest) hdigits.2 (by rwa [hvalue])
    (offset + c.utf8Size)
  obtain ⟨offset₂, hname⟩ := read_letters d n [l] rest hletters.2 (offset₁ + l.utf8Size)
  refine ⟨offset₂, ?_⟩
  calc read offset d phase (amountText (n, name) ++ rest)
      = read offset d phase (c :: (ds ++ ((l :: ls) ++ rest))) := by
        rw [amountText, hds, hls, List.append_assoc, List.cons_append]
    _ = read offset₁ d (.whole n) ((l :: ls) ++ rest) := by
        rw [read_cons, hfirst, ← hvalue, ← hnumber]
        rfl
    _ = read (offset₁ + l.utf8Size) d (.unit n none [l]) (ls ++ rest) := by
        rw [List.cons_append, read_cons, hunit]
        rfl
    _ = read offset₂ d (.unit n none name.toList.reverse) rest := by
        rw [hname, ← List.reverse_cons, ← hls]

def nanosOf (amount : Nat × String) : Nat :=
  match TimeUnit.ofName? amount.2.toList with
  | some unit => amount.1 * unit.size.toNanos
  | none => 0

def total (amounts : List (Nat × String)) : Nat := (amounts.map nanosOf).sum

theorem Counts.nanosOf (h : Counts amount unit) :
    nanosOf amount = amount.1 * unit.size.toNanos := by
  rw [Phrase.nanosOf, h.names.ofName?_eq]

theorem Counts.lt_word (h : Counts amount unit)
    (hfits : amount.1 * unit.size.toNanos < 2 ^ 64 * 1000000000) : amount.1 < 2 ^ 64 := by
  have hsmall := h.small
  cases unit <;> simp [TimeUnit.size, TimeUnit.Size.toNanos] at hfits hsmall <;> omega

theorem Counts.read_blank (h : Counts amount unit)
    (hfits : d.toNanos + amount.1 * unit.size.toNanos < 2 ^ 64 * 1000000000) (offset : Nat)
    (rest : List Char) :
    read offset d (.unit amount.1 none amount.2.toList.reverse) (' ' :: rest) =
      read (offset + 1) (ofNanos (d.toNanos + amount.1 * unit.size.toNanos))
        (.between (offset + 1)) rest := by
  have hblank : step offset ' ' d (.unit amount.1 none amount.2.toList.reverse) =
      (Phrase.addAmount d amount.1 none amount.2.toList.reverse >>= fun d =>
        .ok (d, .between (offset + 1))) := rfl
  rw [read_cons, hblank, h.addAmount hfits]
  rfl

theorem read_amounts {amounts : List (Nat × String)} (hne : amounts ≠ [])
    (hamounts : ∀ amount ∈ amounts, ∃ unit, Counts amount unit)
    (hfits : d.toNanos + total amounts < 2 ^ 64 * 1000000000) (hphase : phase.Open) (offset : Nat) :
    read offset d phase (Text.join ' ' (amounts.map amountText)) =
      .ok (ofNanos (d.toNanos + total amounts)) := by
  induction amounts generalizing d phase offset with
  | nil => contradiction
  | cons amount rest ih =>
      obtain ⟨⟨unit, hunit⟩, hrest⟩ := List.forall_mem_cons.1 hamounts
      have htotal : total (amount :: rest) = amount.1 * unit.size.toNanos + total rest := by
        rw [total, List.map_cons, List.sum_cons, hunit.nanosOf, total]
      rw [htotal, ← Nat.add_assoc] at hfits ⊢
      have hword := hunit.lt_word (by omega)
      cases rest with
      | nil =>
          obtain ⟨offset', hread⟩ := read_amount d [] hunit hword hphase offset
          have hnone : total [] = 0 := rfl
          rw [List.append_nil] at hread
          rw [hnone, Nat.add_zero]
          exact hread.trans (hunit.addAmount (by omega))
      | cons next rest =>
          obtain ⟨offset', hread⟩ := read_amount d
            (' ' :: Text.join ' ' ((next :: rest).map amountText)) hunit hword hphase offset
          have hsum : (ofNanos (d.toNanos + amount.1 * unit.size.toNanos)).toNanos =
              d.toNanos + amount.1 * unit.size.toNanos := toNanos_ofNanos (by omega)
          have hopen : Phase.Open (.between (offset' + 1)) := trivial
          have hlater := ih (d := ofNanos (d.toNanos + amount.1 * unit.size.toNanos)) (by simp)
            hrest (by rwa [hsum]) hopen (offset' + 1)
          rw [hsum] at hlater
          exact hread.trans ((hunit.read_blank (by omega) offset' _).trans hlater)

/-! ## The nine amounts of a duration -/

theorem names_plural (n : Nat) :
    Names (amounts.plural n "year") .year ∧ Names (amounts.plural n "month") .month ∧
      Names (amounts.plural n "day") .day := by
  unfold amounts.plural
  split <;> decide

def units : List TimeUnit :=
  [.year, .month, .day, .hour, .minute, .second, .millisecond, .microsecond, .nanosecond]

theorem counts_amounts (d : Duration) : List.Forall₂ Counts (amounts d) units := by
  have hnanos := d.nanos.isLt
  have hsecs : ∀ {n m : Nat} {name : String} {unit : TimeUnit}, Names name unit →
      unit.size = .secs m → Counts (n, name) unit := by
    intro n m name unit hnames hsize
    exact ⟨hnames, by simp [hsize]⟩
  have hms : Names "ms" .millisecond := by decide
  have hus : Names "us" .microsecond := by decide
  have hns : Names "ns" .nanosecond := by decide
  refine .cons (hsecs (names_plural _).1 rfl) <| .cons (hsecs (names_plural _).2.1 rfl) <|
    .cons (hsecs (names_plural _).2.2 rfl) <| .cons (hsecs (by decide) rfl) <|
    .cons (hsecs (by decide) rfl) <| .cons (hsecs (by decide) rfl) <|
    .cons ⟨hms, ?_⟩ <| .cons ⟨hus, ?_⟩ <| .cons ⟨hns, ?_⟩ .nil
  all_goals
    rintro n ⟨rfl⟩
    simp only
    omega

theorem total_eq {amounts : List (Nat × String)} {units : List TimeUnit}
    (h : List.Forall₂ Counts amounts units) :
    total amounts = (List.zipWith (fun a u => a.1 * u.size.toNanos) amounts units).sum := by
  induction h with
  | nil => rfl
  | cons hcounts _ ih =>
      rw [total, List.map_cons, List.sum_cons, hcounts.nanosOf, List.zipWith_cons_cons,
        List.sum_cons, ← ih, total]

theorem sum_units (f : TimeUnit → Nat) (y mo d h m s ms us ns : Nat × String) :
    (List.zipWith (fun a u => a.1 * f u) [y, mo, d, h, m, s, ms, us, ns] units).sum =
      y.1 * f .year + mo.1 * f .month + d.1 * f .day + h.1 * f .hour + m.1 * f .minute +
        s.1 * f .second + ms.1 * f .millisecond + us.1 * f .microsecond + ns.1 * f .nanosecond := by
  simp only [units, List.zipWith_cons_cons, List.zipWith_nil_left, List.sum_cons, List.sum_nil,
    Nat.add_zero, Nat.add_assoc]

/-- Every remainder goes to the next smaller unit. -/
theorem total_amounts (d : Duration) : total (amounts d) = d.toNanos := by
  have hyear : TimeUnit.year.size.toNanos = 31557600 * 1000000000 := rfl
  have hmonth : TimeUnit.month.size.toNanos = 2630016 * 1000000000 := rfl
  have hday : TimeUnit.day.size.toNanos = 86400 * 1000000000 := rfl
  have hhour : TimeUnit.hour.size.toNanos = 3600 * 1000000000 := rfl
  have hminute : TimeUnit.minute.size.toNanos = 60 * 1000000000 := rfl
  have hsecond : TimeUnit.second.size.toNanos = 1 * 1000000000 := rfl
  have hmilli : TimeUnit.millisecond.size.toNanos = 1000000 := rfl
  have hmicro : TimeUnit.microsecond.size.toNanos = 1000 := rfl
  have hnano : TimeUnit.nanosecond.size.toNanos = 1 := rfl
  rw [total_eq (counts_amounts d)]
  unfold amounts
  rw [sum_units fun u => u.size.toNanos, hyear, hmonth, hday, hhour, hminute, hsecond, hmilli,
    hmicro, hnano, toNanos]
  omega

theorem exists_unit {amounts : List (Nat × String)} {units : List TimeUnit}
    (h : List.Forall₂ Counts amounts units) : ∀ amount ∈ amounts, ∃ unit, Counts amount unit := by
  induction h with
  | nil => simp
  | cons hcounts _ ih => exact List.forall_mem_cons.2 ⟨⟨_, hcounts⟩, ih⟩

theorem total_filter (amounts : List (Nat × String)) :
    total (amounts.filter (·.1 ≠ 0)) = total amounts := by
  induction amounts with
  | nil => rfl
  | cons amount rest ih =>
      by_cases hzero : amount.1 = 0
      · have hnone : nanosOf amount = 0 := by
          unfold nanosOf
          split <;> simp [hzero]
        simpa [total, hzero, hnone] using ih
      · simpa [total, hzero] using ih

/-! ## The text of a duration -/

theorem Counts.isWord (h : Counts amount unit) : Text.IsWord (amountText amount) :=
  (Text.isWord_toDigits amount.1).append
    ⟨h.names.ne_nil, fun c hc => Text.isAlphanum_of_isAlpha (h.names.alpha c hc)⟩

theorem Counts.two_le_length (h : Counts amount unit) : 2 ≤ (amountText amount).length := by
  have hdigits := Nat.length_toDigits_pos (b := 10) (n := amount.1)
  have hletters := List.length_pos_iff.2 h.names.ne_nil
  rw [amountText, List.length_append]
  omega

theorem exists_unit_of_mem (h : amount ∈ (amounts d).filter (·.1 ≠ 0)) :
    ∃ unit, Counts amount unit :=
  exists_unit (counts_amounts d) amount (List.mem_filter.1 h).1

end Phrase

/-- What is written is a row of words, even for no time at all. -/
theorem isWords_toPhrase (d : Duration) : ∃ words, Text.IsWords d.toPhrase.toList words := by
  unfold toPhrase
  cases hamounts : (Phrase.amounts d).filter (·.1 ≠ 0) with
  | nil =>
      have hzero : Text.IsWord "0s".toList := by decide
      exact ⟨_, hzero.isWords⟩
  | cons amount rest =>
      refine ⟨(amount :: rest).map Phrase.amountText, by simp, fun w hw => ?_, String.toList_ofList⟩
      obtain ⟨a, ha, rfl⟩ := List.mem_map.1 hw
      rw [← hamounts] at ha
      obtain ⟨unit, hunit⟩ := Phrase.exists_unit_of_mem ha
      exact hunit.isWord

/-- Whatever the duration, from nothing up to 2⁶⁴ seconds, it is read as it was written. -/
theorem ofPhrase_toPhrase (d : Duration) : ofPhrase d.toPhrase = .ok d := by
  have htotal := Phrase.total_filter (Phrase.amounts d)
  rw [Phrase.total_amounts] at htotal
  unfold toPhrase
  cases hamounts : (Phrase.amounts d).filter (·.1 ≠ 0) with
  | nil =>
      rw [hamounts] at htotal
      have hd : d = .ofSecs 0 := toNanos_injective htotal.symm
      rw [hd]
      rfl
  | cons amount rest =>
      have hcounts : ∀ a ∈ amount :: rest, ∃ unit, Phrase.Counts a unit := by
        intro a ha
        rw [← hamounts] at ha
        exact Phrase.exists_unit_of_mem ha
      obtain ⟨unit, hunit⟩ := hcounts amount List.mem_cons_self
      have hzero : (Duration.ofSecs 0).toNanos = 0 := rfl
      have hopen : Phrase.Phase.Open .start := trivial
      have hread := Phrase.read_amounts (d := .ofSecs 0) (by simp) hcounts
        (by rw [← hamounts, htotal, hzero, Nat.zero_add]; exact d.toNanos_lt) hopen 0
      rw [← hamounts, htotal, hzero, Nat.zero_add, ofNanos_toNanos, hamounts] at hread
      have hlength : 2 ≤ (Text.join ' ' ((amount :: rest).map Phrase.amountText)).length :=
        Nat.le_trans hunit.two_le_length (Text.length_le_join _ _ _)
      have hne : String.ofList (Text.join ' ' ((amount :: rest).map Phrase.amountText)) ≠ "0" := by
        intro heq
        have hlist := congrArg String.toList heq
        rw [String.toList_ofList] at hlist
        rw [hlist] at hlength
        contradiction
      rw [ofPhrase, if_neg hne, String.toList_ofList, hread]

end Duration

end Throttle
