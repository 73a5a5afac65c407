import TensorInference.Proofs.Binary.TotalOrder

/-!
# Integers in double precision

The double-precision number nearest to an integer of 64 bits is an integer itself: the multiple of
a power of two that keeps 53 significant bits. Nothing is lost up to 2 ^ 53, and beyond it several
integers are rounded to the same one, but never a greater integer to a lower one. The total order
places the patterns of rounded integers as these integers are ordered.
Main statement: `totallyPrecedes_ofInt_iff`.
-/

namespace TensorInference.Binary

variable {den n m a b : Nat}

theorem roundDiv_mono (h : a ≤ b) : roundDiv a den ≤ roundDiv b den := by
  have hquotient : a / den ≤ b / den := Nat.div_le_div_right h
  have ha := Nat.div_add_mod a den
  have hb := Nat.div_add_mod b den
  unfold roundDiv
  dsimp only
  rcases hquotient.lt_or_eq with hlt | heq
  · split_ifs <;> omega
  · -- The quotients are the same, so the remainders are in order.
    rw [heq] at ha ⊢
    have hrest : a % den ≤ b % den := by omega
    split_ifs <;> omega

theorem roundDiv_mul_self (count : Nat) (hden : 0 < den) : roundDiv (count * den) den = count := by
  unfold roundDiv
  dsimp only
  rw [Nat.mul_mod_left, Nat.mul_div_cancel _ hden, if_pos (by omega)]

/-- A rounded quotient is off by a half at most, and it is even if it is off by a half. -/
theorem roundDiv_near (num : Nat) (hden : 0 < den) :
    2 * ((roundDiv num den * den : Nat) - num : Int).natAbs ≤ den ∧
      (2 * ((roundDiv num den * den : Nat) - num : Int).natAbs = den →
        roundDiv num den % 2 = 0) := by
  have hdivide := Nat.div_add_mod num den
  have hrest := Nat.mod_lt num hden
  rw [Nat.mul_comm] at hdivide
  have hnext : (num / den + 1) * den = num / den * den + den := Nat.succ_mul _ _
  unfold roundDiv
  dsimp only
  split_ifs with hlow hhigh
  · omega
  · rw [hnext]
    omega
  · rcases Nat.mod_two_eq_zero_or_one (num / den) with heven | hodd
    · rw [heven, Nat.add_zero]
      omega
    · rw [hodd, hnext]
      omega

/-! ## Natural numbers of 53 significant bits -/

/-- The power of two at whose multiples a natural number is rounded. -/
def step (n : Nat) : Nat :=
  2 ^ (n.log2 - 52)

/-- The natural number of 53 significant bits nearest to a natural number; a half step goes to the
even multiple. -/
def nearest (n : Nat) : Nat :=
  roundDiv n (step n) * step n

theorem step_pos (n : Nat) : 0 < step n :=
  Nat.two_pow_pos _

/-- Rounding goes half a step at most, and it goes half a step only to an even multiple. -/
theorem nearest_near (n : Nat) : step n ∣ nearest n ∧
    2 * ((nearest n : Int) - n).natAbs ≤ step n ∧
      (2 * ((nearest n : Int) - n).natAbs = step n → 2 * step n ∣ nearest n) := by
  obtain ⟨hnear, htie⟩ := roundDiv_near n (step_pos n)
  exact ⟨Nat.dvd_mul_left _ _, hnear, fun h ↦
    Nat.mul_dvd_mul_right (Nat.dvd_of_mod_eq_zero (htie h)) _⟩

theorem step_dvd_two_pow {k : Nat} (h : n.log2 - 52 ≤ k) : step n ∣ 2 ^ k :=
  Nat.pow_dvd_pow 2 h

theorem nearest_le_of_dvd (hdvd : step n ∣ m) (h : n ≤ m) : nearest n ≤ m := by
  obtain ⟨count, rfl⟩ := hdvd
  have hround := @roundDiv_mono (step n) _ _ h
  rw [Nat.mul_comm, roundDiv_mul_self _ (step_pos n)] at hround
  rw [nearest, Nat.mul_comm]
  exact Nat.mul_le_mul_left _ hround

theorem le_nearest_of_dvd (hdvd : step n ∣ m) (h : m ≤ n) : m ≤ nearest n := by
  obtain ⟨count, rfl⟩ := hdvd
  have hround := @roundDiv_mono (step n) _ _ h
  rw [Nat.mul_comm, roundDiv_mul_self _ (step_pos n)] at hround
  rw [nearest, Nat.mul_comm (step n)]
  exact Nat.mul_le_mul_right _ hround

/-- Up to 2 ^ 53 nothing is lost. -/
theorem nearest_eq_self (h : n ≤ 2 ^ 53) : nearest n = n := by
  have hdvd : step n ∣ n := by
    rcases h.lt_or_eq with hlt | rfl
    · have hlog : n.log2 < 53 := by
        rcases Nat.eq_zero_or_pos n with rfl | hpos
        · decide
        · exact (Nat.log2_lt hpos.ne').2 hlt
      rw [step, show n.log2 - 52 = 0 by omega]
      exact Nat.one_dvd n
    · exact step_dvd_two_pow (by rw [Nat.log2_two_pow]; decide)
  exact Nat.le_antisymm (nearest_le_of_dvd hdvd (Nat.le_refl n))
    (le_nearest_of_dvd hdvd (Nat.le_refl n))

theorem two_pow_log2_le_nearest (h : 0 < n) : 2 ^ n.log2 ≤ nearest n :=
  le_nearest_of_dvd (step_dvd_two_pow (Nat.sub_le _ _)) (Nat.log2_self_le h.ne')

theorem nearest_pos (h : 0 < n) : 0 < nearest n :=
  Nat.lt_of_lt_of_le (Nat.two_pow_pos _) (two_pow_log2_le_nearest h)

/-- A greater number is not rounded to a lower one. -/
theorem nearest_mono (h : a ≤ b) : nearest a ≤ nearest b := by
  rcases Nat.eq_zero_or_pos a with rfl | ha
  · exact Nat.zero_le _
  have hb : 0 < b := Nat.lt_of_lt_of_le ha h
  have hlog : a.log2 ≤ b.log2 :=
    (Nat.le_log2 hb.ne').2 (Nat.le_trans (Nat.log2_self_le ha.ne') h)
  rcases hlog.lt_or_eq with hlt | heq
  · calc nearest a
        ≤ 2 ^ (a.log2 + 1) :=
          nearest_le_of_dvd (step_dvd_two_pow (by omega)) Nat.lt_log2_self.le
      _ ≤ 2 ^ b.log2 := Nat.pow_le_pow_right Nat.two_pos hlt
      _ ≤ nearest b := two_pow_log2_le_nearest hb
  · have hstep : step a = step b := by rw [step, step, heq]
    rw [nearest, nearest, hstep]
    exact Nat.mul_le_mul_right _ (roundDiv_mono h)

namespace Format

variable {f : Format} {e : Int}

/-- A significand that was rounded up to the next power of two is stored at the next exponent. -/
theorem exists_canonical (hleast : f.leastExponent ≤ e) (hlow : f.hiddenBit ≤ m)
    (hhigh : m ≤ 2 * f.hiddenBit) : ∃ significand exponent, f.Canonical significand exponent ∧
      f.pattern m e = f.pattern significand exponent ∧
      (m : ℚ) * 2 ^ e = significand * 2 ^ exponent := by
  rcases hhigh.lt_or_eq with hlt | rfl
  · exact ⟨m, e, ⟨hleast, .inl hlow, hlt⟩, rfl, rfl⟩
  · have hpos := f.hiddenBit_pos
    refine ⟨f.hiddenBit, e + 1, ⟨by omega, .inl (Nat.le_refl _), by omega⟩, ?_, ?_⟩
    · have hsteps : (e + 1 - f.leastExponent).toNat = (e - f.leastExponent).toNat + 1 := by omega
      rw [pattern, pattern, hsteps]
      ring
    · rw [zpow_add_one₀ two_ne_zero]
      push_cast
      ring

theorem roundingExponent_double (hn : 0 < n) :
    double.roundingExponent n 1 = (n.log2 : Int) - 52 := by
  have hlog : log2Ratio n 1 = n.log2 := by
    have hlarge : ¬ n < 1 <<< n.log2 := by
      rw [Nat.one_shiftLeft]
      exact Nat.not_lt.2 (Nat.log2_self_le hn.ne')
    have hone : Nat.log2 1 = 0 := rfl
    simp [log2Ratio, hone, hlarge]
  have hleast : double.leastExponent = -1074 := rfl
  have hprecision : double.precision = 53 := rfl
  rw [roundingExponent, hlog, hleast, hprecision]
  omega

/-- At its exponent a natural number is rounded to a multiple of its step. -/
theorem roundShift_mul (hn : 0 < n) :
    (roundShift n 1 ((n.log2 : Int) - 52) : ℚ) * 2 ^ ((n.log2 : Int) - 52) = nearest n := by
  rcases Nat.lt_or_ge n.log2 52 with hsmall | hlarge
  · obtain ⟨k, hk⟩ := Nat.exists_eq_add_of_lt hsmall
    have hshift : roundShift n 1 ((n.log2 : Int) - 52) = n * 2 ^ (k + 1) := by
      have hself := roundDiv_mul_self (n * 2 ^ (k + 1)) Nat.one_pos
      rw [Nat.mul_one] at hself
      rw [roundShift, if_neg (by omega), show (-((n.log2 : Int) - 52)).toNat = k + 1 by omega,
        Nat.shiftLeft_eq, hself]
    have hlt : n < 2 ^ 53 := (Nat.log2_lt hn.ne').1 (by omega)
    rw [hshift, nearest_eq_self hlt.le, show (n.log2 : Int) - 52 = -((k + 1 : Nat) : Int) by omega,
      zpow_neg, zpow_natCast, Nat.cast_mul, Nat.cast_pow, Nat.cast_ofNat,
      mul_inv_cancel_right₀ (by positivity)]
  · obtain ⟨k, hk⟩ := Nat.exists_eq_add_of_le hlarge
    rw [roundShift, if_pos (by omega), show (n.log2 : Int) - 52 = (k : Nat) by omega,
      Int.toNat_natCast, Nat.one_shiftLeft, zpow_natCast, nearest, step,
      show n.log2 - 52 = k by omega]
    push_cast
    rfl

theorem hiddenBit_le_roundShift (hn : 0 < n) :
    double.hiddenBit ≤ roundShift n 1 ((n.log2 : Int) - 52) := by
  have hpow : (0 : ℚ) < 2 ^ ((n.log2 : Int) - 52) := zpow_pos two_pos _
  have hle : ((2 ^ n.log2 : Nat) : ℚ) ≤ nearest n := Nat.cast_le.2 (two_pow_log2_le_nearest hn)
  have hhidden : (double.hiddenBit : ℚ) * 2 ^ ((n.log2 : Int) - 52) = (2 ^ n.log2 : Nat) := by
    rw [hiddenBit_mul_two_zpow (by decide), Nat.cast_pow, Nat.cast_ofNat, ← zpow_natCast]
    congr 1
    have hprecision : (double.precision : Int) = 53 := rfl
    omega
  rw [← roundShift_mul hn, ← hhidden] at hle
  exact Nat.cast_le.1 (le_of_mul_le_mul_right hle hpow)

/-- A natural number is rounded to a number of the format, and that is the nearest one. -/
theorem exists_roundRatio_eq (h : n < 2 ^ 64) : ∃ significand exponent,
    double.Canonical significand exponent ∧
      double.roundRatio n 1 = double.pattern significand exponent ∧
      (significand : ℚ) * 2 ^ exponent = nearest n := by
  have hleast : double.leastExponent = -1074 := rfl
  have hhidden : double.hiddenBit = 2 ^ 52 := rfl
  have hinfinity : double.infinity = 2047 * 2 ^ 52 := rfl
  rcases Nat.eq_zero_or_pos n with rfl | hn
  · exact ⟨0, -1074, ⟨by decide, .inr rfl, by decide⟩, rfl, by simp [nearest, roundDiv]⟩
  have hlog : n.log2 < 64 := (Nat.log2_lt hn.ne').2 h
  have hexponent := roundingExponent_double hn
  have hhigh := roundShift_le_two_mul (f := double) (by decide) n Nat.one_pos
  rw [hexponent] at hhigh
  have hlow := hiddenBit_le_roundShift hn
  obtain ⟨significand, exponent, hcanonical, hpattern, hvalue⟩ :=
    exists_canonical (e := (n.log2 : Int) - 52) (by omega) hlow hhigh
  refine ⟨significand, exponent, hcanonical, ?_, hvalue ▸ roundShift_mul hn⟩
  rw [roundRatio_eq hn, hexponent, ← hpattern]
  refine Nat.min_eq_right ?_
  rw [pattern, hleast, hhidden, hinfinity]
  omega

/-- Rounded natural numbers are ordered as their patterns are. -/
theorem roundRatio_lt_iff (ha : a < 2 ^ 64) (hb : b < 2 ^ 64) :
    double.roundRatio a 1 < double.roundRatio b 1 ↔ nearest a < nearest b := by
  obtain ⟨m, d, hm, hma, hma'⟩ := exists_roundRatio_eq ha
  obtain ⟨n, e, hn, hnb, hnb'⟩ := exists_roundRatio_eq hb
  rw [hma, hnb, ← value_lt_iff hm hn, hma', hnb', Nat.cast_lt]

end Format

/-! ## Integers of 53 significant bits -/

/-- The integer of 53 significant bits nearest to an integer. -/
def nearestInt (value : Int) : Int :=
  Format.signedValue (value < 0) (nearest value.natAbs)

variable {v w : Int}

theorem nearestInt_of_nonneg (h : 0 ≤ v) : nearestInt v = nearest v.natAbs := by
  rw [nearestInt, Format.signedValue, decide_eq_false (Int.not_lt.2 h)]
  rfl

theorem nearestInt_of_neg (h : v < 0) : nearestInt v = -(nearest v.natAbs : Int) := by
  rw [nearestInt, Format.signedValue, decide_eq_true h]
  rfl

theorem nearestInt_eq_self (h : v.natAbs ≤ 2 ^ 53) : nearestInt v = v := by
  rcases Int.lt_or_le v 0 with hneg | hnonneg
  · rw [nearestInt_of_neg hneg, nearest_eq_self h]
    omega
  · rw [nearestInt_of_nonneg hnonneg, nearest_eq_self h]
    omega

/-- A greater integer is not rounded to a lower one. -/
theorem nearestInt_mono (h : v ≤ w) : nearestInt v ≤ nearestInt w := by
  rcases Int.lt_or_le v 0 with hv | hv <;> rcases Int.lt_or_le w 0 with hw | hw
  · have hle := @nearest_mono w.natAbs v.natAbs (by omega)
    rw [nearestInt_of_neg hv, nearestInt_of_neg hw]
    omega
  · rw [nearestInt_of_neg hv, nearestInt_of_nonneg hw]
    omega
  · omega
  · have hle := @nearest_mono v.natAbs w.natAbs (by omega)
    rw [nearestInt_of_nonneg hv, nearestInt_of_nonneg hw]
    omega

namespace Format

theorem isNegative_withSign {f : Format} {magnitude : Nat} (negative : Bool)
    (h : magnitude < f.signBit) : f.isNegative (f.withSign negative magnitude) = negative := by
  unfold isNegative withSign
  cases negative with
  | false => simp [Nat.div_eq_of_lt h]
  | true =>
    have hquotient : (f.signBit + magnitude) / f.signBit = 1 :=
      Nat.div_eq_of_lt_le (by omega) (by omega)
    simp [hquotient]

theorem totalKey_withSign {f : Format} {magnitude : Nat} (negative : Bool)
    (h : magnitude < f.signBit) : f.totalKey (f.withSign negative magnitude) =
      if negative then -1 - (magnitude : Int) else magnitude := by
  rw [totalKey, isNegative_withSign negative h, magnitude_withSign negative h]

theorem roundRatio_lt_signBit (num den : Nat) : double.roundRatio num den < double.signBit :=
  Nat.lt_of_le_of_lt (roundRatio_le_infinity _ _) infinity_lt_signBit

theorem totalKey_ofInt (v : Int) : double.totalKey (double.ofInt v) =
    if v < 0 then -1 - (double.roundRatio v.natAbs 1 : Int)
      else double.roundRatio v.natAbs 1 := by
  rw [ofInt, totalKey_withSign _ (roundRatio_lt_signBit _ _)]
  simp

theorem ofInt_lt_patterns (v : Int) : double.ofInt v < double.patterns :=
  withSign_lt (roundRatio_lt_signBit _ _)

theorem totalKey_ofInt_lt_iff (hv : v.natAbs < 2 ^ 64) (hw : w.natAbs < 2 ^ 64) :
    double.totalKey (double.ofInt v) < double.totalKey (double.ofInt w) ↔
      nearestInt v < nearestInt w := by
  have hforth := roundRatio_lt_iff hv hw
  have hback := roundRatio_lt_iff hw hv
  rw [totalKey_ofInt, totalKey_ofInt]
  rcases Int.lt_or_le v 0 with hvneg | hvnonneg <;> rcases Int.lt_or_le w 0 with hwneg | hwnonneg
  · rw [nearestInt_of_neg hvneg, nearestInt_of_neg hwneg, if_pos hvneg, if_pos hwneg]
    omega
  · have hpos := @nearest_pos v.natAbs (by omega)
    rw [nearestInt_of_neg hvneg, nearestInt_of_nonneg hwnonneg, if_pos hvneg,
      if_neg (Int.not_lt.2 hwnonneg)]
    omega
  · have hpos := @nearest_pos w.natAbs (by omega)
    rw [nearestInt_of_nonneg hvnonneg, nearestInt_of_neg hwneg, if_pos hwneg,
      if_neg (Int.not_lt.2 hvnonneg)]
    omega
  · rw [nearestInt_of_nonneg hvnonneg, nearestInt_of_nonneg hwnonneg,
      if_neg (Int.not_lt.2 hvnonneg), if_neg (Int.not_lt.2 hwnonneg)]
    omega

/-- The total order places the patterns of integers as the integers that they are rounded to. -/
theorem totallyPrecedes_ofInt_iff (hv : v.natAbs < 2 ^ 64) (hw : w.natAbs < 2 ^ 64) :
    double.TotallyPrecedes (double.ofInt v) (double.ofInt w) ↔ nearestInt v < nearestInt w := by
  rw [totallyPrecedes_iff, totalKey_ofInt_lt_iff hv hw]

theorem ofInt_eq_iff (hv : v.natAbs < 2 ^ 64) (hw : w.natAbs < 2 ^ 64) :
    double.ofInt v = double.ofInt w ↔ nearestInt v = nearestInt w := by
  have hforth := totalKey_ofInt_lt_iff hv hw
  have hback := totalKey_ofInt_lt_iff hw hv
  constructor
  · intro h
    rw [h] at hforth hback
    omega
  · intro h
    exact totalKey_inj (ofInt_lt_patterns v) (ofInt_lt_patterns w) (by omega)

end Format

end TensorInference.Binary
