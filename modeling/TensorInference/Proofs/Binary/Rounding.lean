import Mathlib.Algebra.Order.Field.Power
import Mathlib.Data.Rat.Defs
import Mathlib.Tactic.Linarith
import Mathlib.Tactic.NormNum
import Mathlib.Tactic.Positivity
import Mathlib.Tactic.Ring
import TensorInference.Proofs.Binary.Arithmetic

/-!
# The size of rounded numbers

Numbers are ordered as their patterns are. A value that exceeds a number of the format by less than
half a step is rounded to at most that number, and a value at most half a step below an even number
to at least that number. So a double-precision number is rounded to a number of single precision
exactly if it lies within a fixed range, in which lie all integers of 64 bits and all numbers of
half and single precision.
Main statement: `isFinite_convert_single_iff`.
-/

namespace TensorInference.Binary

variable {num den : Nat}

theorem ratio_lt (num : Nat) (hden : 0 < den) :
    (num : ℚ) / den < 2 ^ ((num.log2 : Int) - den.log2 + 1) := by
  have hpow : ((2 ^ den.log2 : Nat) : ℚ) ≤ den := Nat.cast_le.2 (Nat.log2_self_le hden.ne')
  have hnum : (num : ℚ) < (2 ^ (num.log2 + 1) : Nat) := Nat.cast_lt.2 Nat.lt_log2_self
  rw [div_lt_iff₀ (Nat.cast_pos.2 hden)]
  calc (num : ℚ)
      < (2 ^ (num.log2 + 1) : Nat) := hnum
    _ = 2 ^ ((num.log2 : Int) - den.log2 + 1) * (2 ^ den.log2 : Nat) := by
      push_cast
      rw [← zpow_natCast, ← zpow_natCast, ← zpow_add₀ two_ne_zero]
      congr 1
      push_cast
      ring
    _ ≤ 2 ^ ((num.log2 : Int) - den.log2 + 1) * den :=
      mul_le_mul_of_nonneg_left hpow (zpow_nonneg zero_le_two _)

theorem lt_ratio (hnum : 0 < num) (hden : 0 < den) :
    2 ^ ((num.log2 : Int) - den.log2 - 1) < (num : ℚ) / den := by
  have hinverse := ratio_lt den hnum
  rw [← inv_lt_inv₀ (zpow_pos two_pos _) (div_pos (Nat.cast_pos.2 hden) (Nat.cast_pos.2 hnum)),
    inv_div, ← zpow_neg] at hinverse
  rwa [show -((den.log2 : Int) - num.log2 + 1) = (num.log2 : Int) - den.log2 - 1 by ring]
    at hinverse

/-- A ratio is compared with a power of two by shifting. -/
theorem ratio_lt_two_zpow_iff (num : Nat) (hden : 0 < den) (k : Int) :
    (num : ℚ) / den < 2 ^ k ↔
      if 0 ≤ k then num < den <<< k.toNat else num <<< (-k).toNat < den := by
  rw [div_lt_iff₀ (Nat.cast_pos.2 hden)]
  split
  · rename_i hk
    lift k to Nat using hk
    rw [zpow_natCast, Int.toNat_natCast, Nat.shiftLeft_eq, mul_comm]
    exact_mod_cast Iff.rfl
  · rename_i hk
    obtain ⟨n, rfl⟩ : ∃ n : Nat, k = -n := ⟨(-k).toNat, by omega⟩
    rw [neg_neg, Int.toNat_natCast, Nat.shiftLeft_eq, zpow_neg, zpow_natCast, inv_mul_eq_div,
      lt_div_iff₀ (by positivity)]
    exact_mod_cast Iff.rfl

theorem log2Ratio_eq (num : Nat) (hden : 0 < den) :
    log2Ratio num den =
      if (num : ℚ) / den < 2 ^ ((num.log2 : Int) - den.log2)
        then (num.log2 : Int) - den.log2 - 1 else (num.log2 : Int) - den.log2 := by
  simp only [ratio_lt_two_zpow_iff num hden, log2Ratio]
  split <;> rfl

/-- A ratio is less than the power of two after its logarithm. -/
theorem ratio_lt_of_log2Ratio (num : Nat) (hden : 0 < den) :
    (num : ℚ) / den < 2 ^ (log2Ratio num den + 1) := by
  rw [log2Ratio_eq num hden]
  split
  · rename_i hlt
    rwa [Int.sub_add_cancel]
  · exact ratio_lt num hden

/-- A positive ratio is at least the power of two of its logarithm. -/
theorem le_ratio_of_log2Ratio (hnum : 0 < num) (hden : 0 < den) :
    2 ^ log2Ratio num den ≤ (num : ℚ) / den := by
  rw [log2Ratio_eq num hden]
  split
  · exact (lt_ratio hnum hden).le
  · rename_i hle
    exact not_lt.1 hle

variable {bound : Nat}

/-- Less than half a step above an integer is rounded to at most that integer. -/
theorem roundDiv_le (hden : 0 < den) (h : (num : ℚ) / den < bound + 2⁻¹) :
    roundDiv num den ≤ bound := by
  have hsteps : 2 * num < (2 * bound + 1) * den := by
    rw [div_lt_iff₀ (Nat.cast_pos.2 hden)] at h
    have htwice : (2 * num : ℚ) < (2 * bound + 1) * den := by linarith
    exact_mod_cast htwice
  have hdiv := Nat.div_add_mod num den
  have hmod := Nat.mod_lt num hden
  have hquotient : num / den ≤ bound := by
    refine Nat.le_of_lt_succ (Nat.div_lt_of_lt_mul ?_)
    nlinarith
  unfold roundDiv
  dsimp only
  rcases hquotient.lt_or_eq with hlt | heq
  · split
    · omega
    · split <;> omega
  · have hrest : 2 * (num % den) < den := by
      rw [heq] at hdiv
      nlinarith
    rw [if_pos hrest]
    exact hquotient

/-- Half a step below an even integer is rounded to at least that integer. -/
theorem le_roundDiv (hden : 0 < den) (heven : bound % 2 = 0)
    (h : (bound : ℚ) ≤ num / den + 2⁻¹) : bound ≤ roundDiv num den := by
  have hsteps : 2 * bound * den ≤ 2 * num + den := by
    have hpos : (0 : ℚ) < den := Nat.cast_pos.2 hden
    have hmul : (bound : ℚ) * den ≤ (num / den + 2⁻¹) * den :=
      mul_le_mul_of_nonneg_right h hpos.le
    rw [add_mul, div_mul_cancel₀ _ hpos.ne'] at hmul
    have htwice : (2 * bound * den : ℚ) ≤ 2 * num + den := by linarith
    exact_mod_cast htwice
  have hdiv := Nat.div_add_mod num den
  have hmod := Nat.mod_lt num hden
  have hquotient : bound ≤ num / den + 1 := by
    by_contra hlt
    have hmul : den * (num / den + 2) ≤ den * bound := Nat.mul_le_mul_left _ (not_le.1 hlt)
    nlinarith
  unfold roundDiv
  dsimp only
  rcases hquotient.lt_or_eq with hlt | heq
  · split
    · omega
    · split <;> omega
  · have hrest : den ≤ 2 * (num % den) := by
      rw [heq] at hsteps
      nlinarith
    rw [if_neg (not_lt.2 hrest)]
    split <;> omega

/-- A quotient rounded at steps of a power of two. -/
def roundShift (num den : Nat) (k : Int) : Nat :=
  if 0 ≤ k then roundDiv num (den <<< k.toNat) else roundDiv (num <<< (-k).toNat) den

theorem exists_roundShift (num : Nat) (hden : 0 < den) (k : Int) :
    ∃ num' den', 0 < den' ∧ roundShift num den k = roundDiv num' den' ∧
      (num : ℚ) / den = (num' : ℚ) / den' * 2 ^ k := by
  unfold roundShift
  split
  · rename_i hk
    lift k to Nat using hk
    have hpos : 0 < den <<< k := by
      rw [Nat.shiftLeft_eq]
      exact Nat.mul_pos hden (Nat.two_pow_pos k)
    refine ⟨_, _, hpos, rfl, ?_⟩
    rw [Nat.shiftLeft_eq, zpow_natCast, Nat.cast_mul, Nat.cast_pow,
      Nat.cast_ofNat, ← div_div, div_mul_cancel₀ _ (by positivity)]
  · rename_i hk
    obtain ⟨n, rfl⟩ : ∃ n : Nat, k = -n := ⟨(-k).toNat, by omega⟩
    refine ⟨_, _, hden, rfl, ?_⟩
    rw [neg_neg, Int.toNat_natCast, Nat.shiftLeft_eq, zpow_neg, zpow_natCast, Nat.cast_mul,
      Nat.cast_pow, Nat.cast_ofNat, mul_div_right_comm, mul_inv_cancel_right₀ (by positivity)]

theorem roundShift_le {k : Int} (hden : 0 < den) (h : (num : ℚ) / den < (bound + 2⁻¹) * 2 ^ k) :
    roundShift num den k ≤ bound := by
  obtain ⟨num', den', hden', hround, hratio⟩ := exists_roundShift num hden k
  rw [hratio] at h
  rw [hround]
  exact roundDiv_le hden' (lt_of_mul_lt_mul_right h (zpow_nonneg zero_le_two _))

theorem le_roundShift {k : Int} (hden : 0 < den) (heven : bound % 2 = 0)
    (h : (bound : ℚ) * 2 ^ k ≤ num / den + 2⁻¹ * 2 ^ k) : bound ≤ roundShift num den k := by
  obtain ⟨num', den', hden', hround, hratio⟩ := exists_roundShift num hden k
  rw [hratio, ← add_mul] at h
  rw [hround]
  exact le_roundDiv hden' heven (le_of_mul_le_mul_right h (zpow_pos two_pos _))

namespace Format

variable {f g : Format} {e : Int}

theorem hiddenBit_mul_two_zpow (hprecision : 1 ≤ f.precision) (e : Int) :
    (f.hiddenBit : ℚ) * 2 ^ e = 2 ^ (f.precision - 1 + e) := by
  rw [hiddenBit, Nat.one_shiftLeft, Nat.cast_pow, Nat.cast_ofNat, ← zpow_natCast,
    ← zpow_add₀ two_ne_zero, Nat.cast_sub hprecision, Nat.cast_one]

/-- A significand at an exponent in the form in which the format stores it. -/
structure Canonical (f : Format) (significand : Nat) (exponent : Int) : Prop where
  least : f.leastExponent ≤ exponent
  low : f.hiddenBit ≤ significand ∨ exponent = f.leastExponent
  high : significand < 2 * f.hiddenBit

/-- The magnitude that stores a significand at an exponent. -/
def pattern (f : Format) (significand : Nat) (exponent : Int) : Nat :=
  (exponent - f.leastExponent).toNat * f.hiddenBit + significand

/-- The exponent at which a ratio is rounded. -/
def roundingExponent (f : Format) (num den : Nat) : Int :=
  max f.leastExponent (log2Ratio num den - (f.precision - 1 : Nat))

theorem roundRatio_eq (hnum : 0 < num) :
    f.roundRatio num den = min f.infinity
      (f.pattern (roundShift num den (f.roundingExponent num den)) (f.roundingExponent num den)) :=
  if_neg hnum.ne'

/-- The significand of a rounded ratio does not exceed the next power of two. -/
theorem roundShift_le_two_mul (hprecision : 1 ≤ f.precision) (num : Nat) (hden : 0 < den) :
    roundShift num den (f.roundingExponent num den) ≤ 2 * f.hiddenBit := by
  refine roundShift_le hden ?_
  have hpos : (0 : ℚ) < 2 ^ f.roundingExponent num den := zpow_pos two_pos _
  have hexponent : log2Ratio num den - (f.precision - 1 : Nat) ≤ f.roundingExponent num den :=
    le_max_right _ _
  calc (num : ℚ) / den
      < 2 ^ (log2Ratio num den + 1) := ratio_lt_of_log2Ratio num hden
    _ ≤ 2 ^ (f.precision - 1 + f.roundingExponent num den + 1) :=
      zpow_le_zpow_right₀ one_le_two (by omega)
    _ = (2 * f.hiddenBit : Nat) * 2 ^ f.roundingExponent num den := by
      rw [zpow_add_one₀ two_ne_zero, ← hiddenBit_mul_two_zpow hprecision]
      push_cast
      ring
    _ ≤ ((2 * f.hiddenBit : Nat) + 2⁻¹) * 2 ^ f.roundingExponent num den := by
      refine mul_le_mul_of_nonneg_right ?_ hpos.le
      linarith

/-- Less than half a step above a number is rounded to at most that number. -/
theorem roundRatio_le (hprecision : 1 ≤ f.precision) (hden : 0 < den) (hbound : f.Canonical bound e)
    (h : (num : ℚ) / den < (bound + 2⁻¹) * 2 ^ e) : f.roundRatio num den ≤ f.pattern bound e := by
  rcases Nat.eq_zero_or_pos num with rfl | hnum
  · exact Nat.zero_le _
  rw [roundRatio_eq hnum]
  refine Nat.le_trans (Nat.min_le_right _ _) ?_
  have hsignificand := roundShift_le_two_mul hprecision num hden
  have hleast := hbound.least
  have hpow : (2 : ℚ) ^ log2Ratio num den < 2 ^ (f.precision - 1 + e + 1) :=
    calc (2 : ℚ) ^ log2Ratio num den
        ≤ num / den := le_ratio_of_log2Ratio hnum hden
      _ < (bound + 2⁻¹) * 2 ^ e := h
      _ ≤ 2 * f.hiddenBit * 2 ^ e := by
        refine mul_le_mul_of_nonneg_right ?_ (zpow_nonneg zero_le_two _)
        have hsucc : ((bound + 1 : Nat) : ℚ) ≤ (2 * f.hiddenBit : Nat) :=
          Nat.cast_le.2 hbound.high
        push_cast at hsucc
        linarith
      _ = 2 ^ (f.precision - 1 + e + 1) := by
        rw [zpow_add_one₀ two_ne_zero, ← hiddenBit_mul_two_zpow hprecision]
        ring
  have hlog : log2Ratio num den < f.precision - 1 + e + 1 :=
    (zpow_lt_zpow_iff_right₀ one_lt_two).1 hpow
  rcases Int.lt_or_eq_of_le (show f.roundingExponent num den ≤ e by
    rw [roundingExponent]
    omega) with hlt | heq
  · -- A lower exponent keeps the number below, whatever its significand is.
    have hlow : f.hiddenBit ≤ bound := by
      refine hbound.low.resolve_right (Int.ne_of_gt (Int.lt_of_le_of_lt ?_ hlt))
      exact le_max_left _ _
    have hsteps : (f.roundingExponent num den - f.leastExponent).toNat + 1 ≤
        (e - f.leastExponent).toNat := by
      have hexponent : f.leastExponent ≤ f.roundingExponent num den := le_max_left _ _
      omega
    have hmul := Nat.mul_le_mul_right f.hiddenBit hsteps
    rw [pattern, pattern]
    linarith
  · rw [heq]
    exact Nat.add_le_add_left (roundShift_le hden h) _

/-- Half a step below an even number, or above it, is rounded to at least that number. -/
theorem le_roundRatio (hprecision : 2 ≤ f.precision) (hden : 0 < den)
    (hleast : f.leastExponent ≤ e) (heven : bound % 2 = 0) (hlow : f.hiddenBit < bound)
    (hhigh : bound ≤ 2 * f.hiddenBit) (hfinite : f.pattern bound e ≤ f.infinity)
    (h : (bound : ℚ) * 2 ^ e ≤ num / den + 2⁻¹ * 2 ^ e) :
    f.pattern bound e ≤ f.roundRatio num den := by
  have hpow : (0 : ℚ) < 2 ^ e := zpow_pos two_pos _
  have hge : (2 : ℚ) ^ (f.precision - 1 + e) ≤ num / den := by
    have hsucc : ((f.hiddenBit + 1 : Nat) : ℚ) * 2 ^ e ≤ bound * 2 ^ e :=
      mul_le_mul_of_nonneg_right (Nat.cast_le.2 hlow) hpow.le
    rw [← hiddenBit_mul_two_zpow (Nat.le_of_succ_le hprecision)]
    push_cast at hsucc
    linarith
  have hnum : 0 < num := by
    refine Nat.pos_of_ne_zero fun hzero => ?_
    rw [hzero, Nat.cast_zero, zero_div] at hge
    exact absurd hge (not_le.2 (zpow_pos two_pos _))
  have hlog : f.precision - 1 + e < log2Ratio num den + 1 :=
    (zpow_lt_zpow_iff_right₀ one_lt_two).1 (hge.trans_lt (ratio_lt_of_log2Ratio num hden))
  rw [roundRatio_eq hnum]
  refine Nat.le_min.2 ⟨hfinite, ?_⟩
  rcases Int.lt_or_eq_of_le (show e ≤ f.roundingExponent num den by
    rw [roundingExponent]
    omega) with hgt | heq
  · -- A higher exponent keeps the number above, as its significand has the hidden bit.
    have hexponent : f.precision - 1 + f.roundingExponent num den = log2Ratio num den := by
      rw [roundingExponent] at hgt ⊢
      omega
    have hsignificand : f.hiddenBit ≤ roundShift num den (f.roundingExponent num den) := by
      refine le_roundShift hden ?_ ?_
      · rw [hiddenBit, Nat.one_shiftLeft]
        exact Nat.mod_eq_zero_of_dvd (dvd_pow_self 2 (by omega))
      · rw [hiddenBit_mul_two_zpow (Nat.le_of_succ_le hprecision), hexponent]
        have hratio := le_ratio_of_log2Ratio hnum hden
        have hhalf : (0 : ℚ) < 2⁻¹ * 2 ^ f.roundingExponent num den := by positivity
        linarith
    have hsteps : (e - f.leastExponent).toNat + 1 ≤
        (f.roundingExponent num den - f.leastExponent).toNat := by omega
    have hmul := Nat.mul_le_mul_right f.hiddenBit hsteps
    rw [pattern, pattern]
    linarith
  · rw [← heq]
    exact Nat.add_le_add_left (le_roundShift hden heven h) _

/-- Rounding a multiple of a power of two is rounding a ratio of the same value. -/
theorem exists_roundScaled (f : Format) (significand : Nat) (exponent : Int) :
    ∃ num den, 0 < den ∧ f.roundScaled significand exponent = f.roundRatio num den ∧
      (significand : ℚ) * 2 ^ exponent = (num : ℚ) / den := by
  unfold roundScaled
  split
  · rename_i hexponent
    lift exponent to Nat using hexponent
    refine ⟨_, _, Nat.one_pos, rfl, ?_⟩
    rw [Int.toNat_natCast, Nat.shiftLeft_eq, Nat.cast_one, div_one, zpow_natCast, Nat.cast_mul,
      Nat.cast_pow, Nat.cast_ofNat]
  · rename_i hexponent
    obtain ⟨n, rfl⟩ : ∃ n : Nat, exponent = -n := ⟨(-exponent).toNat, by omega⟩
    rw [neg_neg, Int.toNat_natCast, Nat.one_shiftLeft]
    refine ⟨_, _, Nat.two_pow_pos n, rfl, ?_⟩
    rw [zpow_neg, zpow_natCast, Nat.cast_pow, Nat.cast_ofNat, div_eq_mul_inv]

theorem magnitude_withSign (negative : Bool) {magnitude : Nat} (h : magnitude < f.signBit) :
    f.magnitude (f.withSign negative magnitude) = magnitude := by
  unfold Format.magnitude withSign
  split
  · rw [Nat.add_mod_left, Nat.mod_eq_of_lt h]
  · exact Nat.mod_eq_of_lt h

variable {significand : Nat} {exponent : Int}

/-- Of two numbers the one with the greater exponent has the greater pattern. -/
theorem pattern_lt_of_exponent_lt (hnumber : f.Canonical significand exponent)
    (hbound : f.Canonical bound e) (h : exponent < e) :
    f.pattern significand exponent < f.pattern bound e := by
  obtain ⟨hleast, -, hhigh⟩ := hnumber
  have hhidden : f.hiddenBit ≤ bound := hbound.low.resolve_right (by omega)
  have hsteps : (exponent - f.leastExponent).toNat + 1 ≤ (e - f.leastExponent).toNat := by omega
  have hmul := Nat.mul_le_mul_right f.hiddenBit hsteps
  rw [pattern, pattern]
  linarith

/-- Numbers are ordered as their patterns are. -/
theorem value_lt_of_pattern_lt (hnumber : f.Canonical significand exponent)
    (hbound : f.Canonical bound e) (h : f.pattern significand exponent < f.pattern bound e) :
    (significand : ℚ) * 2 ^ exponent < bound * 2 ^ e := by
  rcases lt_trichotomy exponent e with hlt | rfl | hgt
  · have hpow : (2 : ℚ) ^ (exponent + 1) ≤ 2 ^ e := zpow_le_zpow_right₀ one_le_two hlt
    have hleast := hnumber.least
    calc (significand : ℚ) * 2 ^ exponent
        < (2 * f.hiddenBit : Nat) * 2 ^ exponent :=
          mul_lt_mul_of_pos_right (Nat.cast_lt.2 hnumber.high) (zpow_pos two_pos _)
      _ = f.hiddenBit * 2 ^ (exponent + 1) := by
          rw [Nat.cast_mul, Nat.cast_ofNat, zpow_add_one₀ two_ne_zero]
          ring
      _ ≤ bound * 2 ^ e :=
          mul_le_mul (Nat.cast_le.2 (hbound.low.resolve_right (by omega))) hpow
            (zpow_nonneg zero_le_two _) (Nat.cast_nonneg _)
  · exact mul_lt_mul_of_pos_right (Nat.cast_lt.2 (Nat.lt_of_add_lt_add_left h))
      (zpow_pos two_pos _)
  · exact absurd h (Nat.lt_asymm (pattern_lt_of_exponent_lt hbound hnumber hgt))

theorem value_le_of_pattern_le (hnumber : f.Canonical significand exponent)
    (hbound : f.Canonical bound e) (h : f.pattern significand exponent ≤ f.pattern bound e) :
    (significand : ℚ) * 2 ^ exponent ≤ bound * 2 ^ e := by
  rcases lt_trichotomy exponent e with hlt | rfl | hgt
  · exact (value_lt_of_pattern_lt hnumber hbound (pattern_lt_of_exponent_lt hnumber hbound hlt)).le
  · exact mul_le_mul_of_nonneg_right (Nat.cast_le.2 (Nat.le_of_add_le_add_left h))
      (zpow_nonneg zero_le_two _)
  · exact absurd h (not_le.2 (pattern_lt_of_exponent_lt hbound hnumber hgt))

/-- The exact value of a number is the one that its pattern stores. -/
theorem exists_unpack_eq_finite {bits : Nat} (hfinite : f.isFinite bits) :
    ∃ negative significand exponent, f.unpack bits = .finite negative significand exponent ∧
      f.Canonical significand exponent ∧ f.magnitude bits = f.pattern significand exponent := by
  have hlt : f.magnitude bits < f.infinity := of_decide_eq_true hfinite
  have hpos := f.hiddenBit_pos
  unfold unpack
  simp only [if_neg (Nat.lt_asymm hlt), if_neg (Nat.ne_of_lt hlt)]
  by_cases hsmall : f.magnitude bits < f.hiddenBit
  · rw [if_pos hsmall]
    refine ⟨_, _, _, rfl, ⟨Int.le_refl _, .inr rfl, by omega⟩, ?_⟩
    rw [pattern, Int.sub_self, Int.toNat_zero, Nat.zero_mul, Nat.zero_add]
  · rw [if_neg hsmall]
    have hmod := Nat.mod_lt (f.magnitude bits) hpos
    have hsteps : 1 ≤ f.magnitude bits / f.hiddenBit :=
      (Nat.one_le_div_iff hpos).2 (not_lt.1 hsmall)
    refine ⟨_, _, _, rfl, ⟨by omega, .inl (Nat.le_add_right _ _), by omega⟩, ?_⟩
    rw [pattern, add_sub_cancel_left, Int.toNat_natCast]
    calc f.magnitude bits
        = f.magnitude bits / f.hiddenBit * f.hiddenBit + f.magnitude bits % f.hiddenBit :=
          (Nat.div_add_mod' _ _).symm
      _ = (f.magnitude bits / f.hiddenBit - 1 + 1) * f.hiddenBit +
          f.magnitude bits % f.hiddenBit := by rw [Nat.sub_add_cancel hsteps]
      _ = _ := by ring

theorem magnitude_convert_of_unpack {bits significand : Nat} {negative : Bool} {exponent : Int}
    (h : f.unpack bits = .finite negative significand exponent) :
    g.magnitude (f.convert g bits) = g.roundScaled significand exponent := by
  rw [convert, h]
  exact magnitude_withSign _ (roundScaled_lt_signBit _ _)

theorem infinity_le_magnitude_carryNaN (hf : 2 ≤ f.precision) (hg : 2 ≤ g.precision) (bits : Nat) :
    g.infinity ≤ g.magnitude (f.carryNaN g bits) := by
  obtain ⟨payload, hpayload, heq⟩ := exists_carryNaN_eq hf hg bits
  have hsum := g.infinity_add_hiddenBit
  rw [heq, magnitude_withSign _ (by rw [quietNaN]; omega), quietNaN]
  omega

/-- What is not a number stays so in every format. -/
theorem infinity_le_magnitude_convert (hf : 2 ≤ f.precision) (hg : 2 ≤ g.precision) {bits : Nat}
    (h : ¬ f.isFinite bits) : g.infinity ≤ g.magnitude (f.convert g bits) := by
  have hge : f.infinity ≤ f.magnitude bits := not_lt.1 fun hlt => h (decide_eq_true hlt)
  unfold convert unpack
  dsimp only
  by_cases hnan : f.infinity < f.magnitude bits
  · rw [if_pos hnan]
    exact infinity_le_magnitude_carryNaN hf hg bits
  · rw [if_neg hnan, if_pos (Nat.le_antisymm (not_lt.1 hnan) hge)]
    exact (magnitude_withSign _ infinity_lt_signBit).ge

/-! ## The range of single precision -/

/-- The greatest double-precision magnitude that is rounded to a number of single precision: just
less than half a step above the greatest of these. -/
def singleLimit : Nat :=
  0x47efffffefffffff

theorem singleLimit_eq : singleLimit = double.pattern (2 ^ 53 - 2 ^ 28 - 1) 75 := by
  decide

/-- What does not exceed the greatest number of single precision is within its range. -/
theorem roundRatio_le_singleLimit (hden : 0 < den)
    (h : (num : ℚ) / den ≤ (2 ^ 24 - 1) * 2 ^ 104) : double.roundRatio num den ≤ singleLimit := by
  rw [singleLimit_eq]
  refine roundRatio_le (by decide) hden ⟨by decide, by decide, by decide⟩ (h.trans_lt ?_)
  norm_num

/-- A double-precision number is rounded to a number of single precision exactly if it lies within
the range of single precision. -/
theorem isFinite_convert_single_iff {bits : Nat} :
    single.isFinite (double.convert single bits) ↔ double.magnitude bits ≤ singleLimit := by
  by_cases hfinite : double.isFinite bits
  · obtain ⟨negative, significand, exponent, hunpack, hcanonical, hmagnitude⟩ :=
      exists_unpack_eq_finite hfinite
    obtain ⟨num, den, hden, hround, hratio⟩ := exists_roundScaled single significand exponent
    rw [isFinite, magnitude_convert_of_unpack hunpack, hround, hmagnitude, decide_eq_true_iff]
    constructor
    · contrapose!
      intro hgt
      have hnext : double.pattern (2 ^ 53 - 2 ^ 28) 75 ≤ double.pattern significand exponent :=
        Nat.le_trans (by decide) (Nat.succ_le_of_lt hgt)
      have hvalue :=
        value_le_of_pattern_le ⟨by decide, by decide, by decide⟩ hcanonical hnext
      refine Nat.le_trans (m := single.pattern (2 ^ 24) 104) (by decide) ?_
      refine le_roundRatio (by decide) hden (by decide) (by decide) (by decide) (by decide)
        (by decide) ?_
      rw [← hratio]
      refine le_trans ?_ (add_le_add_left hvalue _)
      norm_num
    · intro hle
      have hvalue := value_le_of_pattern_le (e := 75) hcanonical
        ⟨by decide, by decide, by decide⟩ (singleLimit_eq ▸ hle)
      refine Nat.lt_of_le_of_lt (m := single.pattern (2 ^ 24 - 1) 104) ?_ (by decide)
      refine roundRatio_le (by decide) hden ⟨by decide, by decide, by decide⟩ ?_
      rw [← hratio]
      refine hvalue.trans_lt ?_
      norm_num
  · have hlimit : singleLimit < double.infinity := by decide
    have hge : double.infinity ≤ double.magnitude bits :=
      not_lt.1 fun hlt => hfinite (decide_eq_true hlt)
    have hconvert := infinity_le_magnitude_convert (g := single) (by decide) (by decide) hfinite
    rw [isFinite, decide_eq_true_iff]
    omega

/-- The integers of 64 bits lie within the range of single precision. -/
theorem magnitude_ofInt_le {value : Int} (h : value.natAbs < 2 ^ 64) :
    double.magnitude (double.ofInt value) ≤ singleLimit := by
  have hrounded : double.roundRatio value.natAbs 1 ≤ singleLimit := by
    refine roundRatio_le_singleLimit Nat.one_pos ?_
    have hcast : (value.natAbs : ℚ) < (2 ^ 64 : Nat) := Nat.cast_lt.2 h
    rw [Nat.cast_one, div_one]
    refine hcast.le.trans ?_
    norm_num
  rw [ofInt, magnitude_withSign _ (Nat.lt_of_le_of_lt hrounded (by decide))]
  exact hrounded

/-- So do the numbers of a format with a narrower range, and nothing else does. -/
theorem magnitude_convert_le_iff (hprecision : 2 ≤ f.precision) (hbound : f.Canonical bound e)
    (hgreatest : f.infinity ≤ f.pattern bound e + 1)
    (hvalue : (bound : ℚ) * 2 ^ e ≤ (2 ^ 24 - 1) * 2 ^ 104) {bits : Nat} :
    double.magnitude (f.convert double bits) ≤ singleLimit ↔ f.isFinite bits := by
  constructor
  · contrapose!
    intro hfinite
    exact Nat.lt_of_lt_of_le (by decide)
      (infinity_le_magnitude_convert (g := double) hprecision (by decide) hfinite)
  · intro hfinite
    obtain ⟨negative, significand, exponent, hunpack, hcanonical, hmagnitude⟩ :=
      exists_unpack_eq_finite hfinite
    obtain ⟨num, den, hden, hround, hratio⟩ := exists_roundScaled double significand exponent
    have hlt : f.magnitude bits < f.infinity := of_decide_eq_true hfinite
    rw [magnitude_convert_of_unpack hunpack, hround]
    refine roundRatio_le_singleLimit hden ?_
    rw [← hratio]
    exact (value_le_of_pattern_le hcanonical hbound (by omega)).trans hvalue

end Format

end TensorInference.Binary
