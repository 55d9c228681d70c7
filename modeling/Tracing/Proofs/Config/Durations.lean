import Tracing.Config.Environment
import Tracing.Proofs.Decimal.Unpacked

/-!
# Durations in range

A number of seconds becomes a duration exactly if it is less than `2 ^ 64`. The reader computes with the
mantissa and the exponent of the number and a comparison of numbers looks at the same two
(`unpack_finite`), so the bound can be stated as a comparison (`nanosOfSeconds?_eq_none`).
-/

namespace Tracing

open Decimal Float.Model

/-- The least number of seconds that is out of range. -/
def secondsLimit : Float := 18446744073709551616

theorem secondsLimit_le_iff {x : Float} {m : Nat} {e : Int} {h : 0 < m}
    (hx : x.toModel.unpack = .finite .positive m e h) :
    secondsLimit ≤ x ↔ 12 < e ∨ e = 12 ∧ 2 ^ 52 ≤ m := by
  have hlimit : secondsLimit.toModel.unpack = .finite .positive (2 ^ 52) 12 (by decide) := rfl
  rw [le_iff_unpack, hlimit, hx]
  simp only [UnpackedFloat.le, UnpackedFloat.compare, Option.any_some, compare, compareOfLessAndEq]
  split
  · next hlt => simp [Ordering.then, hlt]
  · split
    · next heq =>
      subst heq
      split
      · simp [Ordering.then]; omega
      · split <;> simp [Ordering.then] <;> omega
    · simp [Ordering.then]; omega

/-- **A positive number of seconds is out of range exactly from `2 ^ 64` on.** -/
theorem nanosOfSeconds?_eq_none {x : Float} (hfinite : x.isFinite = true) (hpos : 0 < x) :
    nanosOfSeconds? x = none ↔ secondsLimit ≤ x := by
  obtain ⟨m, e, h, hx⟩ := exists_unpack hfinite hpos
  obtain ⟨hm, he⟩ := unpack_finite hx
  obtain ⟨hlt, hge⟩ := mantissa_bounds x
  rw [secondsLimit_le_iff hx]
  unfold nanosOfSeconds?
  simp only [← hm, ← he] at hlt hge ⊢
  simp only [ite_eq_right_iff, reduceCtorEq, imp_false, Nat.not_lt, Nat.shiftLeft_eq, Nat.one_mul]
  by_cases hlarge : 12 ≤ e
  · -- a number this large has its leading bit, and nothing is cut off
    have hden : (-e).toNat = 0 := by omega
    have hpow : 2 ^ 12 ≤ 2 ^ e.toNat := Nat.pow_le_pow_right (by decide) (by omega)
    have hnum : 2 ^ 52 * 2 ^ 12 ≤ m * 2 ^ e.toNat := Nat.mul_le_mul (by omega) hpow
    rw [hden, Nat.pow_zero, Nat.div_one]
    exact iff_of_true hnum (by omega)
  · have hpow : 2 ^ e.toNat ≤ 2 ^ 11 := Nat.pow_le_pow_right (by decide) (by omega)
    have hnum : m * 2 ^ e.toNat < 2 ^ 53 * 2 ^ 11 := Nat.mul_lt_mul_of_lt_of_le hlt hpow (by decide)
    have hdiv := Nat.div_le_self (m * 2 ^ e.toNat) (2 ^ (-e).toNat)
    exact iff_of_false (by omega) (by omega)

end Tracing
