import TensorInference.Proofs.Binary.Rounding

/-!
# The total order of floating-point patterns

Numbers precede each other as their exact values do, the infinities at either end, and minus zero
precedes zero. A pattern that is not a number precedes all numbers if it is negative and is preceded
by all of them otherwise; two such patterns are ordered by sign and then by their fields, which the
quiet bit leads, negative ones the other way round. The key by which patterns are ranked places them
in this order, and no two patterns have the same place.
Main statement: `totallyPrecedes_iff`.
-/

namespace TensorInference.Binary

/-- Whether the exact value of one pattern is less than that of another. What is not a number has no
value. -/
def Unpacked.Less : Unpacked → Unpacked → Prop
  | .infinite s, .infinite t => s = true ∧ t = false
  | .infinite s, .finite .. => s = true
  | .finite .., .infinite t => t = false
  | .finite s m d, .finite t n e =>
    (Format.signedValue s m : ℚ) * 2 ^ d < (Format.signedValue t n : ℚ) * 2 ^ e
  | .nan, _ | _, .nan => False

/-- Whether a value is the zero of a sign. -/
def Unpacked.IsZero (negative : Bool) : Unpacked → Prop
  | .finite s m _ => s = negative ∧ m = 0
  | .infinite _ | .nan => False

namespace Format

/-- The bits of a pattern below its exponent. In a pattern that is not a number these are the quiet
bit and the payload. -/
def field (f : Format) (bits : Nat) : Nat :=
  f.magnitude bits % f.hiddenBit

/-- The total order of the patterns of a format. -/
def TotallyPrecedes (f : Format) (a b : Nat) : Prop :=
  match f.unpack a, f.unpack b with
  | .nan, .nan =>
    match f.isNegative a, f.isNegative b with
    | true, true => f.field b < f.field a
    | true, false => True
    | false, true => False
    | false, false => f.field a < f.field b
  | .nan, _ => f.isNegative a = true
  | _, .nan => f.isNegative b = false
  | x, y => x.Less y ∨ (x.IsZero true ∧ y.IsZero false)

variable {f : Format} {a b : Nat}

theorem magnitude_lt_signBit (bits : Nat) : f.magnitude bits < f.signBit :=
  Nat.mod_lt _ (Nat.zero_lt_of_lt f.infinity_lt_signBit)

/-- A pattern is its magnitude with its sign. -/
theorem withSign_magnitude {bits : Nat} (h : bits < f.patterns) :
    f.withSign (f.isNegative bits) (f.magnitude bits) = bits := by
  rw [patterns] at h
  unfold withSign isNegative Format.magnitude
  by_cases hpositive : bits < f.signBit
  · rw [Nat.div_eq_of_lt hpositive, Nat.mod_eq_of_lt hpositive]
    rfl
  · have hquotient : bits / f.signBit = 1 := Nat.div_eq_of_lt_le (by omega) (by omega)
    have hdiv := Nat.div_add_mod bits f.signBit
    rw [hquotient, Nat.mul_one] at hdiv
    rw [hquotient]
    exact hdiv

/-- Negative patterns are placed by falling magnitude, positive ones after them by rising
magnitude. -/
theorem totalKey_lt_iff : f.totalKey a < f.totalKey b ↔
    match f.isNegative a, f.isNegative b with
    | true, true => f.magnitude b < f.magnitude a
    | true, false => True
    | false, true => False
    | false, false => f.magnitude a < f.magnitude b := by
  unfold totalKey
  cases f.isNegative a <;> cases f.isNegative b <;> simp <;> omega

/-- A pattern of the greater magnitude comes first if it is negative. -/
theorem totalKey_lt_iff_of_gt (h : f.magnitude b < f.magnitude a) :
    f.totalKey a < f.totalKey b ↔ f.isNegative a = true := by
  rw [totalKey_lt_iff]
  cases f.isNegative a <;> cases f.isNegative b <;> simp [h, h.le]

/-- A pattern of the greater magnitude comes last if it is positive. -/
theorem totalKey_lt_iff_of_lt (h : f.magnitude a < f.magnitude b) :
    f.totalKey a < f.totalKey b ↔ f.isNegative b = false := by
  rw [totalKey_lt_iff]
  cases f.isNegative a <;> cases f.isNegative b <;> simp [h, h.le]

/-- No two patterns have the same place. -/
theorem totalKey_inj (ha : a < f.patterns) (hb : b < f.patterns)
    (h : f.totalKey a = f.totalKey b) : a = b := by
  have hboth : f.isNegative a = f.isNegative b ∧ f.magnitude a = f.magnitude b := by
    unfold totalKey at h
    generalize f.isNegative a = s at h ⊢
    generalize f.isNegative b = t at h ⊢
    cases s <;> cases t <;> simp at h ⊢ <;> omega
  rw [← withSign_magnitude ha, ← withSign_magnitude hb, hboth.1, hboth.2]

/-- What a pattern stands for, with what its magnitude says about it. -/
inductive Unpacks (f : Format) (bits : Nat) : Unpacked → Prop
  | nan (hmagnitude : f.magnitude bits = f.infinity + f.field bits)
      (hpos : 0 < f.field bits) : Unpacks f bits .nan
  | infinite (hmagnitude : f.magnitude bits = f.infinity) :
      Unpacks f bits (.infinite (f.isNegative bits))
  | finite {significand : Nat} {exponent : Int} (hmagnitude : f.magnitude bits < f.infinity)
      (hcanonical : f.Canonical significand exponent)
      (hpattern : f.magnitude bits = f.pattern significand exponent) :
      Unpacks f bits (.finite (f.isNegative bits) significand exponent)

theorem unpacks (f : Format) (bits : Nat) : Unpacks f bits (f.unpack bits) := by
  rcases lt_trichotomy (f.magnitude bits) f.infinity with hfinite | hinfinite | hnan
  · obtain ⟨negative, significand, exponent, hunpack, hcanonical, hpattern⟩ :=
      exists_unpack_eq_finite (decide_eq_true hfinite)
    have hsign : negative = f.isNegative bits := by
      unfold unpack at hunpack
      dsimp only at hunpack
      split_ifs at hunpack <;> cases hunpack <;> rfl
    rw [hunpack, hsign]
    exact .finite hfinite hcanonical hpattern
  · have hunpack : f.unpack bits = .infinite (f.isNegative bits) := by
      unfold unpack
      dsimp only
      rw [if_neg (Nat.not_lt.2 hinfinite.le), if_pos hinfinite]
    rw [hunpack]
    exact .infinite hinfinite
  · have hunpack : f.unpack bits = .nan := if_pos hnan
    -- The exponent of infinity is the greatest one, so the rest is all in the field.
    have hfield : f.magnitude bits = f.infinity + f.field bits := by
      obtain ⟨rest, hrest⟩ := Nat.exists_eq_add_of_lt hnan
      have hsum := f.infinity_add_hiddenBit
      have hlt := f.magnitude_lt_signBit bits
      rw [field, hrest, Nat.add_assoc, infinity, Nat.mul_comm, Nat.mul_add_mod,
        Nat.mod_eq_of_lt (by omega)]
    rw [hunpack]
    exact .nan hfield (by omega)

variable {s t : Bool} {m n : Nat} {d e : Int}

theorem value_lt_iff (hm : f.Canonical m d) (hn : f.Canonical n e) :
    (m : ℚ) * 2 ^ d < n * 2 ^ e ↔ f.pattern m d < f.pattern n e := by
  refine ⟨fun h ↦ ?_, value_lt_of_pattern_lt hm hn⟩
  contrapose! h
  exact value_le_of_pattern_le hn hm h

/-- Signed numbers are ordered by their signs and patterns, with minus zero before zero. -/
theorem less_finite_iff (hm : f.Canonical m d) (hn : f.Canonical n e) :
    ((Unpacked.finite s m d).Less (.finite t n e) ∨
        ((Unpacked.finite s m d).IsZero true ∧ (Unpacked.finite t n e).IsZero false)) ↔
      match s, t with
      | true, true => f.pattern n e < f.pattern m d
      | true, false => True
      | false, true => False
      | false, false => f.pattern m d < f.pattern n e := by
  have hmvalue : (0 : ℚ) ≤ m * 2 ^ d := mul_nonneg (Nat.cast_nonneg _) (zpow_nonneg zero_le_two _)
  have hnvalue : (0 : ℚ) ≤ n * 2 ^ e := mul_nonneg (Nat.cast_nonneg _) (zpow_nonneg zero_le_two _)
  have hbelow : -((m : ℚ) * 2 ^ d) < n * 2 ^ e ∨ (m = 0 ∧ n = 0) := by
    rcases Nat.eq_zero_or_pos m with rfl | hm
    · rcases Nat.eq_zero_or_pos n with rfl | hn
      · exact .inr ⟨rfl, rfl⟩
      · have hpos : (0 : ℚ) < n * 2 ^ e := mul_pos (Nat.cast_pos.2 hn) (zpow_pos two_pos _)
        exact .inl (by linarith)
    · have hpos : (0 : ℚ) < m * 2 ^ d := mul_pos (Nat.cast_pos.2 hm) (zpow_pos two_pos _)
      exact .inl (by linarith)
  cases s <;> cases t
  · simp [Unpacked.Less, Unpacked.IsZero, signedValue, value_lt_iff hm hn]
  · simp [Unpacked.Less, Unpacked.IsZero, signedValue]
    linarith
  · simpa [Unpacked.Less, Unpacked.IsZero, signedValue] using hbelow
  · simp [Unpacked.Less, Unpacked.IsZero, signedValue, value_lt_iff hn hm]

/-- The key places patterns in their total order. -/
theorem totallyPrecedes_iff : f.TotallyPrecedes a b ↔ f.totalKey a < f.totalKey b := by
  have ha := f.unpacks a
  have hb := f.unpacks b
  unfold TotallyPrecedes
  generalize f.unpack a = x at ha ⊢
  generalize f.unpack b = y at hb ⊢
  -- Patterns of different kinds differ in magnitude, so the sign of the greater one decides.
  cases ha with
  | nan ha hafield =>
    cases hb with
    | nan hb hbfield =>
      rw [totalKey_lt_iff, ha, hb]
      cases f.isNegative a <;> cases f.isNegative b <;> simp
    | infinite hb => exact (totalKey_lt_iff_of_gt (by omega)).symm
    | finite hb => exact (totalKey_lt_iff_of_gt (by omega)).symm
  | infinite ha =>
    cases hb with
    | nan hb hbfield => exact (totalKey_lt_iff_of_lt (by omega)).symm
    | infinite hb =>
      rw [totalKey_lt_iff, ha, hb]
      cases f.isNegative a <;> cases f.isNegative b <;> simp [Unpacked.Less, Unpacked.IsZero]
    | finite hb =>
      rw [totalKey_lt_iff_of_gt (by omega)]
      simp [Unpacked.Less, Unpacked.IsZero]
  | finite ha hacanonical hapattern =>
    cases hb with
    | nan hb hbfield => exact (totalKey_lt_iff_of_lt (by omega)).symm
    | infinite hb =>
      rw [totalKey_lt_iff_of_lt (by omega)]
      simp [Unpacked.Less, Unpacked.IsZero]
    | finite hb hbcanonical hbpattern =>
      rw [totalKey_lt_iff, hapattern, hbpattern]
      exact less_finite_iff hacanonical hbcanonical

end Format

end TensorInference.Binary
