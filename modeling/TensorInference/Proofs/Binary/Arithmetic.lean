import TensorInference.Binary.Arithmetic

/-!
# The range of floating-point results

A pattern of a format has one bit more than its magnitude. Rounding never goes above infinity, and
what is not a number keeps within the payload that its format has, so sums, differences and
converted numbers are patterns of the format whatever the operands were. Nothing is said here about
how exact they are.
-/

namespace TensorInference.Binary.Format

variable {f g : Format}

/-- How many patterns a format has. -/
def patterns (f : Format) : Nat :=
  2 * f.signBit

theorem hiddenBit_pos : 0 < f.hiddenBit := by
  rw [hiddenBit, Nat.one_shiftLeft]
  exact Nat.two_pow_pos _

theorem infinity_add_hiddenBit : f.infinity + f.hiddenBit = f.signBit := by
  have hpos : 1 ≤ 2 ^ f.exponentBits := Nat.two_pow_pos _
  calc f.infinity + f.hiddenBit
      = (2 ^ f.exponentBits - 1 + 1) * f.hiddenBit := by
        rw [infinity, Nat.one_shiftLeft, Nat.succ_mul]
    _ = 2 ^ f.exponentBits * 2 ^ (f.precision - 1) := by
        rw [Nat.sub_add_cancel hpos, hiddenBit, Nat.one_shiftLeft]
    _ = f.signBit := by rw [signBit, Nat.one_shiftLeft, ← Nat.pow_add, Nat.add_comm]

theorem infinity_lt_signBit : f.infinity < f.signBit := by
  have hsum := f.infinity_add_hiddenBit
  have hpos := f.hiddenBit_pos
  omega

theorem quietNaN_lt_signBit : f.quietNaN < f.signBit := by
  have hsum := f.infinity_add_hiddenBit
  have hpos := f.hiddenBit_pos
  rw [quietNaN]
  omega

theorem withSign_lt {negative : Bool} {magnitude : Nat} (h : magnitude < f.signBit) :
    f.withSign negative magnitude < f.patterns := by
  unfold withSign patterns
  split <;> omega

theorem roundRatio_le_infinity (num den : Nat) : f.roundRatio num den ≤ f.infinity := by
  unfold roundRatio
  split
  · exact Nat.zero_le _
  · exact Nat.min_le_left _ _

theorem roundScaled_lt_signBit (significand : Nat) (exponent : Int) :
    f.roundScaled significand exponent < f.signBit := by
  unfold roundScaled
  split <;> exact Nat.lt_of_le_of_lt (roundRatio_le_infinity _ _) infinity_lt_signBit

/-- A format with a bit for the payload can carry the patterns of other such formats: they keep
below its quiet bit. -/
theorem exists_carryNaN_eq (hf : 2 ≤ f.precision) (hg : 2 ≤ g.precision) (bits : Nat) :
    ∃ payload < g.hiddenBit / 2,
      f.carryNaN g bits = g.withSign (f.isNegative bits) (g.quietNaN + payload) := by
  have hhalf (format : Format) (h : 2 ≤ format.precision) :
      format.hiddenBit / 2 = 2 ^ (format.precision - 2) := by
    rw [hiddenBit, Nat.one_shiftLeft, show format.precision - 1 = format.precision - 2 + 1 by omega,
      Nat.pow_succ, Nat.mul_div_cancel _ Nat.two_pos]
  have hpayload : f.magnitude bits % (f.hiddenBit / 2) < 2 ^ (f.precision - 2) := by
    rw [hhalf f hf]
    exact Nat.mod_lt _ (Nat.two_pow_pos _)
  refine ⟨_, ?_, rfl⟩
  rw [hhalf g hg]
  split
  · rename_i hle
    calc (f.magnitude bits % (f.hiddenBit / 2)) <<< (g.precision - f.precision)
        = f.magnitude bits % (f.hiddenBit / 2) * 2 ^ (g.precision - f.precision) :=
          Nat.shiftLeft_eq ..
      _ < 2 ^ (f.precision - 2) * 2 ^ (g.precision - f.precision) :=
          Nat.mul_lt_mul_of_pos_right hpayload (Nat.two_pow_pos _)
      _ = 2 ^ (g.precision - 2) := by rw [← Nat.pow_add]; congr 1; omega
  · rename_i hgt
    rw [Nat.shiftRight_eq_div_pow]
    refine Nat.div_lt_of_lt_mul ?_
    calc f.magnitude bits % (f.hiddenBit / 2)
        < 2 ^ (f.precision - 2) := hpayload
      _ = 2 ^ (f.precision - g.precision) * 2 ^ (g.precision - 2) := by
          rw [← Nat.pow_add]; congr 1; omega

theorem carryNaN_lt (hf : 2 ≤ f.precision) (hg : 2 ≤ g.precision) (bits : Nat) :
    f.carryNaN g bits < g.patterns := by
  obtain ⟨payload, hpayload, heq⟩ := exists_carryNaN_eq hf hg bits
  have hsum := g.infinity_add_hiddenBit
  rw [heq]
  apply withSign_lt
  rw [quietNaN]
  omega

theorem convert_lt (hf : 2 ≤ f.precision) (hg : 2 ≤ g.precision) (bits : Nat) :
    f.convert g bits < g.patterns := by
  unfold convert
  split
  · exact carryNaN_lt hf hg bits
  · exact withSign_lt infinity_lt_signBit
  · exact withSign_lt (roundScaled_lt_signBit _ _)

theorem add_lt (hprecision : 2 ≤ f.precision) (a b : Nat) : f.add a b < f.patterns := by
  unfold add
  split
  · exact carryNaN_lt hprecision hprecision a
  · exact carryNaN_lt hprecision hprecision b
  · split
    · exact withSign_lt infinity_lt_signBit
    · exact withSign_lt quietNaN_lt_signBit
  · exact withSign_lt infinity_lt_signBit
  · exact withSign_lt infinity_lt_signBit
  · exact withSign_lt (roundScaled_lt_signBit _ _)

theorem sub_lt (hprecision : 2 ≤ f.precision) (a b : Nat) : f.sub a b < f.patterns := by
  unfold sub
  split
  · exact add_lt hprecision a b
  · exact add_lt hprecision a (f.negate b)

end TensorInference.Binary.Format
