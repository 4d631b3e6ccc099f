import Throttle.Proofs.Accounting
import Throttle.Proofs.AddressGrammar
import Throttle.Proofs.Isolation

/-!
# Spellings of an address and the buckets they spend from

An address has one spelling without superfluous zeros, and that is how it is written.  Taking the
superfluous zeros out of a numeral gives the digits of its value, by induction on the numeral: one
more digit at the end leaves the zeros in front superfluous, and makes a lone zero so.  Hence two
texts denote one address exactly if they are the same without these zeros.  What is no address is
counted as `0.0.0.0`, whose bucket takes the visits under all such texts.
-/

namespace Throttle

/-! ## Superfluous zeros -/

namespace Text

variable {cs : List Char} {n : Nat}

/-- A numeral without the zeros in front of it; the last of its digits stays. -/
def unpad : List Char → List Char
  | '0' :: c :: cs => unpad (c :: cs)
  | cs => cs

theorem unpad_concat (hne : cs ≠ []) (c : Char) :
    unpad (cs ++ [c]) = if unpad cs = ['0'] then [c] else unpad cs ++ [c] := by
  fun_induction unpad cs with
  | case1 c' cs ih => exact ih (List.cons_ne_nil c' cs)
  | case2 cs hpadded =>
      match cs with
      | [] => contradiction
      | [d] =>
          by_cases hd : d = '0'
          · simp [hd, unpad]
          · simp [hd, unpad]
      | d :: c' :: cs =>
          have hd : d ≠ '0' := by
            rintro rfl
            exact hpadded c' cs rfl
          simp [hd, unpad]

theorem Numeral.unpad_eq (h : Numeral cs n) : unpad cs = Nat.toDigits 10 n := by
  induction h with
  | digit hd => simp [unpad, Nat.toDigits_of_lt_base hd]
  | @snoc cs n d hcs hd ih =>
      rw [unpad_concat (numeral_iff.1 hcs).1, ih]
      by_cases hn : n = 0
      · subst hn
        rw [if_pos (by rfl), Nat.mul_zero, Nat.zero_add, Nat.toDigits_of_lt_base hd]
      · have hzero : Nat.toDigits 10 n ≠ ['0'] := by
          intro hzero
          have hvalue := Nat.ofDigitChars_toDigits (b := 10) (n := n) (by decide) (by decide)
          rw [hzero] at hvalue
          exact hn hvalue.symm
        rw [if_neg hzero, ← Nat.toDigits_of_lt_base hd,
          Nat.toDigits_append_toDigits (by decide) (Nat.pos_of_ne_zero hn) hd]

end Text

/-! ## Spellings -/

namespace Address.V4

variable {s t : String} {a b : V4}

/-- The text with the superfluous zeros taken out of each of its parts. -/
def unpadded (s : String) : String :=
  .ofList (Text.join '.' ((Text.fields '.' s.toList).map Text.unpad))

theorem parse_toText (a : V4) : parse a.toText = .ok a := (denotes_toText a).parse_eq

theorem octets_eq {v₁ v₂ v₃ v₄ : Nat} (hle₂ : v₂ ≤ 255) (hle₃ : v₃ ≤ 255) (hle₄ : v₄ ≤ 255)
    (h : a.bits.toNat = ((v₁ * 256 + v₂) * 256 + v₃) * 256 + v₄) :
    a.octets = [v₁, v₂, v₃, v₄] := by
  simp only [octets, h, List.cons.injEq, and_true]
  omega

/-- An address is written as every text that denotes it, but for the superfluous zeros. -/
theorem Denotes.toText_eq (h : Denotes s a) : a.toText = unpadded s := by
  obtain ⟨hs, h₁, h₂, h₃, h₄, hbits⟩ := h
  rw [toText, octets_eq h₂.le h₃.le h₄.le hbits, unpadded, fields_of_octets hs h₁ h₂ h₃ h₄]
  simp only [List.map_cons, List.map_nil, h₁.numeral.unpad_eq, h₂.numeral.unpad_eq,
    h₃.numeral.unpad_eq, h₄.numeral.unpad_eq]

/-- The last digit of a part and the zeros behind another digit are kept. -/
example : unpadded "010.000.0200.5" = "10.0.200.5" := by decide +kernel

theorem toText_inj : a.toText = b.toText ↔ a = b := by
  constructor
  · intro h
    have hparse := parse_toText a
    rw [h, parse_toText b] at hparse
    exact (Except.ok.inj hparse).symm
  · rintro rfl
    rfl

theorem unpadded_eq_iff (hs : parse s = .ok a) (ht : parse t = .ok b) :
    unpadded s = unpadded t ↔ a = b := by
  rw [← (parse_eq_ok_iff.1 hs).toText_eq, ← (parse_eq_ok_iff.1 ht).toText_eq, toText_inj]

/-! ## Texts counted as one address -/

/-- The text is no address, or it denotes `0.0.0.0`. -/
def Folds (s : String) : Prop := (∃ e, parse s = .error e) ∨ parse s = .ok unspecified

/-- The two texts spell one address, or both are counted as `0.0.0.0`. -/
inductive SharesBucket (s t : String) : Prop where
  | spelled {a b : V4} : parse s = .ok a → parse t = .ok b → unpadded s = unpadded t →
      SharesBucket s t
  | folded : Folds s → Folds t → SharesBucket s t

theorem ofText_of_parse (h : parse s = .ok a) : ofText s = a := by
  rw [ofText, h]

theorem ofText_eq_unspecified_iff : ofText s = unspecified ↔ Folds s := by
  unfold ofText Folds
  cases parse s <;> simp

theorem exists_parse_of_not_folds (h : ¬ Folds s) : ∃ a, parse s = .ok a := by
  cases hs : parse s with
  | ok a => exact ⟨a, rfl⟩
  | error e => exact absurd (.inl ⟨e, hs⟩) h

theorem ofText_eq_ofText_iff : ofText s = ofText t ↔ SharesBucket s t := by
  constructor
  · intro h
    have hfolds : Folds s ↔ Folds t := by
      rw [← ofText_eq_unspecified_iff, ← ofText_eq_unspecified_iff, h]
    by_cases hs : Folds s
    · exact .folded hs (hfolds.1 hs)
    · obtain ⟨a, ha⟩ := exists_parse_of_not_folds hs
      obtain ⟨b, hb⟩ := exists_parse_of_not_folds (mt hfolds.2 hs)
      rw [ofText_of_parse ha, ofText_of_parse hb] at h
      exact .spelled ha hb ((unpadded_eq_iff ha hb).2 h)
  · intro h
    cases h with
    | spelled hs ht hsame =>
        rw [ofText_of_parse hs, ofText_of_parse ht]
        exact (unpadded_eq_iff hs ht).1 hsame
    | folded hs ht => rw [ofText_eq_unspecified_iff.2 hs, ofText_eq_unspecified_iff.2 ht]

end Address.V4

/-! ## Buckets -/

namespace Rule

variable {κ : Type} [DecidableEq κ] {r r' : Rule κ} {clock : Nat} {k : κ}

/-- Whatever is done next, commands that concern the key are answered alike. -/
def AnswersAlike (k : κ) (r r' : Rule κ) : Prop :=
  ∀ ⦃history history' q q'⦄, Runs Step r history q → Runs Step r' history' q' →
    history.map Event.call = history'.map Event.call →
    (history.filter fun e => e.command.concerns k) = history'.filter fun e => e.command.concerns k

theorem AgreesOn.answersAlike (h : r.AgreesOn k r') : AnswersAlike k r r' := by
  intro history history' q q' hruns hruns' hcalls
  have hseen := congrArg (List.filter fun call => Command.concerns k call.2) hcalls
  rw [List.filter_map, List.filter_map] at hseen
  exact (Runs.seen_eq (Command.concerns k)
    (fun _ _ _ _ _ _ h hc hstep => (hstep.agreesOn hc h.valid).symm.trans h)
    (fun _ _ _ _ _ _ h hc hstep => h.trans (hstep.agreesOn hc h.symm.valid))
    (fun _ _ _ _ _ _ _ _ h hc hstep hstep' => h.step hc hstep hstep') hruns hruns' h hseen).1

/-- Every count for the key has gone down by one, from a positive number. -/
def Charged (clock : Nat) (k : κ) (r r' : Rule κ) : Prop :=
  (r.remaining clock k).2 = (r'.remaining clock k).2.map (· + 1)

theorem charged_visit (hvalid : ∀ w ∈ r.windows, w.Valid)
    (hfits : ∀ w ∈ r.windows, w.span.toNanos < 2 ^ 63 ∧ w.DueFits clock)
    (hadmitted : (r.visit clock k).2 = .admitted) : Charged clock k r (r.visit clock k).1 := by
  have hvalid' : ∀ w ∈ (r.visit clock k).1.windows, w.Valid :=
    (step_step clock r (.visit k)).valid hvalid
  have hasked := asked_visit clock k hvalid
  rw [hadmitted] at hasked
  have hdues : ∀ w ∈ r.windows, w.elapsed clock ≤ w.due clock :=
    fun w hw => Window.elapsed_le_due (hfits w hw).1 (hfits w hw).2
  rw [Charged, remaining_eq_left hvalid, remaining_eq_left hvalid', hasked.left_admitted hdues,
    List.map_map, List.map_map]
  apply List.map_congr_left
  intro w hw
  have hpos := Window.hasRoom_iff_left.1 (hasked.admitted_iff.1 rfl w hw)
  simp only [Function.comp_apply]
  omega

end Rule

namespace Address.V4

/--
An address is read back from its text, and that text is every spelling of the address without the
superfluous zeros.  Two texts are counted as one address exactly if they are spellings of one, or
are both no address or `0.0.0.0`.  Whatever a rule has been through, a visit under one of two such
texts is the visit under the other.  If it is admitted and its deadlines do not overflow, it takes
one off each count of their bucket; visits under two other texts leave each other's bucket alone.
-/
theorem buckets_of_spellings :
    (∀ a : V4, parse a.toText = .ok a) ∧
    (∀ s a, parse s = .ok a → a.toText = unpadded s) ∧
    ∀ s t, (ofText s = ofText t ↔ SharesBucket s t) ∧
      ∀ mode past r, Runs Rule.Step ⟨[], mode⟩ past r → ∀ clock,
        let visited := r.visitAddress clock s
        (SharesBucket s t → visited = r.visitAddress clock t ∧
          ((∀ w ∈ r.windows, w.span.toNanos < 2 ^ 63 ∧ w.DueFits clock) →
            visited.2 = .admitted → Rule.Charged clock (.ip (ofText t)) r visited.1)) ∧
        (¬ SharesBucket s t → Rule.AnswersAlike (.ip (ofText t)) r visited.1) := by
  refine ⟨parse_toText, fun s a h => (parse_eq_ok_iff.1 h).toText_eq, ?_⟩
  intro s t
  refine ⟨ofText_eq_ofText_iff, ?_⟩
  intro mode past r hpast clock visited
  have hvalid := Rule.valid_of_runs hpast (by simp)
  constructor
  · intro hshares
    rw [← ofText_eq_ofText_iff] at hshares
    constructor
    · simp only [visited, Rule.visitAddress, hshares]
    · intro hfits hadmitted
      rw [← hshares]
      exact Rule.charged_visit hvalid hfits hadmitted
  · intro hapart
    rw [← ofText_eq_ofText_iff] at hapart
    have hstep := Rule.step_step clock r (.visit (.ip (ofText s)))
    exact (hstep.agreesOn (by simpa [Rule.Command.concerns] using hapart) hvalid).answersAlike

/-- What is no address spends with a padded `0.0.0.0`, and not with the address it begins with. -/
theorem buckets_of_folded_text :
    let setup : List (Nat × Rule.Command Key) := [(0, .addWindow (.ofSecs 1) 2 none),
      (0, .addWindow (.ofSecs 60) 5 none), (3, .visit (.ip ⟨0x0A000001⟩))]
    let r := ((⟨[], .transactional⟩ : Rule Key).run setup).1
    let visited := r.visitAddress 7 "010.0.0.1.9"
    ofText "010.0.0.1.9" = ofText "000.0.00.0" ∧ visited = r.visitAddress 7 "000.0.00.0" ∧
      (visited.1.remaining 7 (.ip unspecified)).2 = [1, 4] ∧
      Rule.Charged 7 (.ip unspecified) r visited.1 ∧
      Rule.AnswersAlike (.ip ⟨0x0A000001⟩) r visited.1 := by
  intro setup r visited
  have hpast := Rule.runs_history (⟨[], .transactional⟩ : Rule Key) setup
  obtain ⟨-, -, hbuckets⟩ := buckets_of_spellings
  have hzero : ofText "000.0.00.0" = unspecified := by decide +kernel
  have hsame : ofText "010.0.0.1.9" = ofText "000.0.00.0" := by decide +kernel
  obtain ⟨hkey, hvisits⟩ := hbuckets "010.0.0.1.9" "000.0.00.0"
  obtain ⟨hvisit, hcharged⟩ := (hvisits _ _ _ hpast 7).1 (hkey.1 hsame)
  have hten : ofText "10.00.0.01" = ⟨0x0A000001⟩ := by decide +kernel
  have hapart : ofText "010.0.0.1.9" ≠ ofText "10.00.0.01" := by decide +kernel
  obtain ⟨hkey', hvisits'⟩ := hbuckets "010.0.0.1.9" "10.00.0.01"
  have halike := (hvisits' _ _ _ hpast 7).2 (mt hkey'.2 hapart)
  rw [hzero] at hcharged
  rw [hten] at halike
  exact ⟨hsame, hvisit, by decide +kernel, hcharged (by decide +kernel) (by decide +kernel),
    halike⟩

end Address.V4

end Throttle
