import Mathlib.Data.Nat.Digits.Lemmas
import TensorInference.Binary.Shortest

/-!
# Shortest decimals

A decimal that identifies a positive number lies in a rounding interval whose ends are positive,
so its digits are not zero; moving trailing zeros into the exponent keeps the first digit. Main
statement: `exponent_shortest`, by which the only decimal without a positive digit is zero itself.
-/

namespace TensorInference.Binary

namespace RoundingInterval

/-- An interval above zero. -/
def Positive (interval : RoundingInterval) : Prop :=
  0 < interval.low ∧ 0 < interval.high

/-- The integer that is nearest to the value lies in the interval. -/
theorem contains_of_nearest? {interval : RoundingInterval} {n : Nat}
    (h : interval.nearest? = some n) : interval.contains n := by
  unfold nearest? at h
  dsimp only at h
  generalize interval.value / interval.den = m at h
  split at h
  · simp at h
  · rename_i hm _
    exact Option.some.inj h ▸ hm
  · rename_i _ hm
    exact Option.some.inj h ▸ hm
  · rename_i hm hm'
    have hn : n = m ∨ n = m + 1 := by
      split_ifs at h <;> simp only [Option.some.injEq] at h <;> omega
    rcases hn with rfl | rfl
    · exact hm
    · exact hm'

theorem Positive.ne_zero_of_contains {interval : RoundingInterval} (h : interval.Positive) {n : Nat}
    (hn : interval.contains n) : n ≠ 0 := by
  rintro rfl
  obtain ⟨hlow, hhigh⟩ := h
  simp only [contains, Nat.zero_mul, Bool.or_eq_true, Bool.and_eq_true, decide_eq_true_eq] at hn
  omega

theorem Positive.scaled {interval : RoundingInterval} (h : interval.Positive) (power : Int) :
    (interval.scaled power).Positive := by
  rw [RoundingInterval.scaled]
  split
  · exact h
  · have hfactor : 0 < Nat.pow 10 (-power).toNat := Nat.pow_pos (by decide)
    exact ⟨Nat.mul_pos h.1 hfactor, Nat.mul_pos h.2 hfactor⟩

theorem positive_of (f : Format) {significand : Nat} (h : 0 < significand) (exponent : Int) :
    (RoundingInterval.of f significand exponent).Positive := by
  have hscale : 0 < (if 0 ≤ exponent - 2 then 1 <<< (exponent - 2).toNat else 1) := by
    split
    · simp [Nat.shiftLeft_eq]
    · decide
  refine ⟨Nat.mul_pos ?_ hscale, Nat.mul_pos (by omega) hscale⟩
  split <;> omega

end RoundingInterval

theorem digits_ne_zero_of_shortestFrom {interval : RoundingInterval} (h : interval.Positive)
    {leading : Int} {steps count : Nat} {d : Decimal}
    (hd : shortestFrom interval leading steps count = some d) : d.digits ≠ 0 := by
  induction steps generalizing count with
  | zero => simp [shortestFrom] at hd
  | succ steps ih =>
    rw [shortestFrom] at hd
    split at hd
    · rename_i digits hdigits
      obtain rfl := Option.some.inj hd
      exact (h.scaled _).ne_zero_of_contains (RoundingInterval.contains_of_nearest? hdigits)
    · exact ih hd

/-- Only zeros at the end are moved, so the first digit stays. -/
theorem Decimal.digits_normalize_ne_zero {d : Decimal} (h : d.digits ≠ 0) :
    d.normalize.digits ≠ 0 := by
  rw [normalize]
  split
  · exact h
  · rename_i hne
    generalize hzeros : ((Nat.toDigits 10 d.digits).reverse.takeWhile (· = '0')).length = zeros
      at hne ⊢
    have hle : zeros ≤ (Nat.toDigits 10 d.digits).length :=
      hzeros ▸ (List.takeWhile_prefix _).length_le.trans_eq List.length_reverse
    have hpow : 10 ^ zeros ≤ d.digits := by
      rcases Nat.eq_zero_or_pos zeros with rfl | hpos
      · simpa [Nat.one_le_iff_ne_zero] using h
      · have := (Nat.length_toDigits_le_iff (n := d.digits) (by decide : 1 < 10) hpos).not
        omega
    exact (Nat.div_pos hpow (Nat.pow_pos (by decide))).ne'

/-- The only shortest decimal without a positive digit is zero. -/
theorem exponent_shortest (f : Format) {significand : Nat} (h : 0 < significand) (exponent : Int)
    (hd : (f.shortest significand exponent).digits = 0) :
    (f.shortest significand exponent).exponent = 0 := by
  rw [Format.shortest] at hd ⊢
  generalize hfrom : shortestFrom (RoundingInterval.of f significand exponent) _ 17 1 = found
    at hd ⊢
  cases found with
  | none => rfl
  | some d =>
    have hdigits : d.digits ≠ 0 :=
      digits_ne_zero_of_shortestFrom (RoundingInterval.positive_of f h exponent) hfrom
    exact absurd hd (Decimal.digits_normalize_ne_zero hdigits)

end TensorInference.Binary
