import Mathlib.Algebra.Order.Ring.Nat
import Throttle.Duration

/-!
# Durations as counts of nanoseconds
-/

namespace Throttle

theorem signedWord_bounds (n : Int) : -2 ^ 63 ≤ signedWord n ∧ signedWord n < 2 ^ 63 := by
  have hpos : 0 < UInt64.size := Nat.two_pow_pos 64
  have hge : _ ≤ signedWord n := Int.le_bmod hpos
  have hlt : signedWord n < _ := Int.bmod_lt hpos
  unfold UInt64.size at hge hlt
  omega

theorem signedWord_eq {n : Int} (hge : -2 ^ 63 ≤ n) (hlt : n < 2 ^ 63) : signedWord n = n := by
  unfold signedWord UInt64.size
  exact Int.bmod_eq_of_le (by omega) (by omega)

theorem exists_signedWord_add (n : Int) : ∃ q : Int, signedWord n + 2 ^ 64 * q = n :=
  ⟨_, Int.bmod_add_bdiv n UInt64.size⟩

/-- Above the range the word is too small, never too large. -/
theorem signedWord_le {n : Int} (hge : -2 ^ 63 ≤ n) : signedWord n ≤ n := by
  have hlt := (signedWord_bounds n).2
  obtain ⟨q, hsum⟩ := exists_signedWord_add n
  omega

theorem signedWord_nonpos {n : Int} (hge : 2 ^ 63 ≤ n) (hle : n ≤ 2 ^ 64) : signedWord n ≤ 0 := by
  have hlt := (signedWord_bounds n).2
  obtain ⟨q, hsum⟩ := exists_signedWord_add n
  omega

namespace Duration

theorem toNanos_lt (d : Duration) : d.toNanos < 2 ^ 64 * 1000000000 := by
  have := d.secs.toNat_lt
  have := d.nanos.isLt
  simp only [toNanos]
  omega

@[simp]
theorem toNanos_ofNanos {n : Nat} (h : n < 2 ^ 64 * 1000000000) : (ofNanos n).toNanos = n := by
  have : n / 1000000000 < 2 ^ 64 := by omega
  simp only [toNanos, ofNanos, UInt64.toNat_ofNat', Fin.ofNat]
  omega

@[simp]
theorem ofNanos_toNanos (d : Duration) : ofNanos d.toNanos = d := by
  obtain ⟨secs, nanos, lt⟩ := d
  have hs : (secs.toNat * 1000000000 + nanos) / 1000000000 = secs.toNat := by omega
  have hn : (secs.toNat * 1000000000 + nanos) % 1000000000 = nanos := by omega
  simp only [ofNanos, toNanos, hs, UInt64.ofNat_toNat, Fin.ofNat, hn]

theorem toNanos_injective {a b : Duration} (h : a.toNanos = b.toNanos) : a = b := by
  rw [← ofNanos_toNanos a, h, ofNanos_toNanos]

/-- Spans below 2⁶³ nanoseconds keep their length. -/
theorem signedNanos_eq {d : Duration} (h : d.toNanos < 2 ^ 63) : d.signedNanos = d.toNanos := by
  exact signedWord_eq (by omega) (by omega)

theorem signedNanos_bounds (d : Duration) : -2 ^ 63 ≤ d.signedNanos ∧ d.signedNanos < 2 ^ 63 :=
  signedWord_bounds _

theorem toNanos_max (a b : Duration) : (max a b).toNanos = max a.toNanos b.toNanos := by
  simp only [max]
  split <;> omega

end Duration

end Throttle
