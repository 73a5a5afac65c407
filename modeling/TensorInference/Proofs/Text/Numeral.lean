import Mathlib.Data.List.Basic
import TensorInference.Text.Numeral

/-!
# Texts that spell numbers

A text is read as a number if it spells the number in decimal: its digits, after any zeros and a
plus sign that may be missing. What is written of a number is one of these spellings, so several
texts are read as one number and only one of them is written again.
Main statement: `word64?_eq_some_iff`.
-/

namespace TensorInference.Text

/-- Whether a text is the digits of a number after any zeros. -/
def Pads (text : List Char) (n : Nat) : Prop :=
  ∃ zeros, text = List.replicate zeros '0' ++ Nat.toDigits 10 n

/-- Whether a text spells a number, with a plus sign in front or without one. -/
def Spells (text : List Char) (n : Nat) : Prop :=
  Pads text n ∨ ∃ rest, text = '+' :: rest ∧ Pads rest n

variable {c : Char} {digit value n : Nat} {text : List Char}

theorem digitValue_eq_some_iff :
    digitValue c = some digit ↔ digit < 10 ∧ c = Nat.digitChar digit := by
  rw [digitValue]
  constructor
  · intro h
    split at h
    · rename_i hrange
      have hlow : 48 ≤ c.toNat := hrange.1
      have hhigh : c.toNat ≤ 57 := hrange.2
      obtain rfl : c.toNat - 48 = digit := Option.some.inj h
      have hdigit : c.toNat - 48 < 10 := by omega
      refine ⟨hdigit, Char.toNat_inj.1 ?_⟩
      rw [Nat.toNat_digitChar_of_lt_ten hdigit]
      omega
    · cases h
  · rintro ⟨hdigit, rfl⟩
    have hcode := Nat.toNat_digitChar_of_lt_ten hdigit
    have hrange : '0' ≤ Nat.digitChar digit ∧ Nat.digitChar digit ≤ '9' := by
      change 48 ≤ (Nat.digitChar digit).toNat ∧ (Nat.digitChar digit).toNat ≤ 57
      omega
    rw [if_pos hrange, hcode]
    exact congrArg some (Nat.add_sub_cancel_left 48 digit)

/-- What is written of a number is read digit by digit. -/
theorem exists_digitValue_of_mem (h : c ∈ Nat.toDigits 10 n) :
    ∃ digit, digitValue c = some digit := by
  have hdigit := Nat.isDigit_of_mem_toDigits (by decide) (by decide) h
  rw [Char.isDigit, Bool.and_eq_true, decide_eq_true_eq, decide_eq_true_eq] at hdigit
  exact ⟨_, if_pos hdigit⟩

theorem toDigits_injective {m : Nat} (h : Nat.toDigits 10 m = Nat.toDigits 10 n) : m = n := by
  rw [← Nat.ofDigitChars_ten_toDigits (n := m), h, Nat.ofDigitChars_ten_toDigits]

/-- One more digit is written after those of a positive number. -/
theorem toDigits_snoc (hvalue : 0 < value) (h : digitValue c = some digit) :
    Nat.toDigits 10 (10 * value + digit) = Nat.toDigits 10 value ++ [c] := by
  obtain ⟨hdigit, rfl⟩ := digitValue_eq_some_iff.1 h
  rw [← Nat.toDigits_append_toDigits (by decide) hvalue hdigit, Nat.toDigits_of_lt_base hdigit]

/-- After a positive number, the number that is read is the one whose digits go on as the text. -/
theorem digitsValue_of_pos (hvalue : 0 < value) :
    digitsValue value text = some n ↔ Nat.toDigits 10 n = Nat.toDigits 10 value ++ text := by
  induction text generalizing value with
  | nil =>
    rw [digitsValue, Option.some.injEq, List.append_nil]
    exact ⟨fun h ↦ h ▸ rfl, fun h ↦ (toDigits_injective h).symm⟩
  | cons c rest ih =>
    rw [digitsValue]
    cases hc : digitValue c with
    | none =>
      refine iff_of_false nofun fun h ↦ ?_
      have hmem : c ∈ Nat.toDigits 10 n := by simp [h]
      obtain ⟨digit, hdigit⟩ := exists_digitValue_of_mem hmem
      cases hc.symm.trans hdigit
    | some digit =>
      rw [Option.bind_some, ih (by omega), toDigits_snoc hvalue hc, List.append_assoc]
      rfl

/-- A zero is written in front of the digits of no number but itself. -/
theorem eq_nil_of_toDigits_eq_cons (h : Nat.toDigits 10 n = '0' :: text) :
    text = [] ∧ n = 0 := by
  induction n using Nat.strongRecOn generalizing text with
  | ind n ih =>
    rw [Nat.toDigits_eq_if (by decide)] at h
    split at h
    · obtain ⟨hdigit, rfl⟩ := List.cons.inj h
      exact ⟨rfl, Nat.digitChar_eq_zero.1 hdigit⟩
    · rename_i hlarge
      rcases List.append_eq_cons_iff.1 h with ⟨hnil, -⟩ | ⟨front, hfront, -⟩
      · exact absurd hnil Nat.toDigits_ne_nil
      · have hzero := (ih (n / 10) (by omega) hfront).2
        omega

theorem exists_digitValue_of_pads (h : Pads text n) (hc : c ∈ text) :
    ∃ digit, digitValue c = some digit := by
  obtain ⟨zeros, rfl⟩ := h
  rcases List.mem_append.1 hc with hc | hc
  · obtain rfl := (List.mem_replicate.1 hc).2
    exact ⟨0, rfl⟩
  · exact exists_digitValue_of_mem hc

theorem not_pads_nil : ¬ Pads [] n := by
  rintro ⟨zeros, h⟩
  exact Nat.toDigits_ne_nil (List.append_eq_nil_iff.1 h.symm).2

theorem pads_zero_cons_iff : Pads ('0' :: text) n ↔ (text = [] ∧ n = 0) ∨ Pads text n := by
  constructor
  · rintro ⟨_ | zeros, h⟩
    · exact .inl (eq_nil_of_toDigits_eq_cons h.symm)
    · exact .inr ⟨zeros, (List.cons.inj h).2⟩
  · rintro (⟨rfl, rfl⟩ | ⟨zeros, rfl⟩)
    · exact ⟨0, rfl⟩
    · exact ⟨zeros + 1, rfl⟩

theorem pads_cons_iff (hdigit : digit < 10) (hpos : 0 < digit) :
    Pads (Nat.digitChar digit :: text) n ↔
      Nat.toDigits 10 n = Nat.toDigits 10 digit ++ text := by
  rw [Nat.toDigits_of_lt_base hdigit]
  constructor
  · rintro ⟨_ | zeros, h⟩
    · exact h.symm
    · exact absurd (Nat.digitChar_eq_zero.1 (List.cons.inj h).1) (Nat.ne_of_gt hpos)
  · exact fun h ↦ ⟨0, h.symm⟩

theorem digitsValue_zero (hne : text ≠ []) : digitsValue 0 text = some n ↔ Pads text n := by
  induction text with
  | nil => exact absurd rfl hne
  | cons c rest ih =>
    rw [digitsValue]
    cases hc : digitValue c with
    | none =>
      refine iff_of_false nofun fun h ↦ ?_
      obtain ⟨digit, hdigit⟩ := exists_digitValue_of_pads h List.mem_cons_self
      cases hc.symm.trans hdigit
    | some digit =>
      obtain ⟨hdigit, rfl⟩ := digitValue_eq_some_iff.1 hc
      rw [Option.bind_some, Nat.mul_zero, Nat.zero_add]
      rcases Nat.eq_zero_or_pos digit with rfl | hpos
      · refine Iff.trans ?_ pads_zero_cons_iff.symm
        by_cases hrest : rest = []
        · subst hrest
          simp only [digitsValue, Option.some.injEq, not_pads_nil, true_and, or_false, eq_comm]
        · simp only [ih hrest, hrest, false_and, false_or]
      · rw [digitsValue_of_pos hpos, pads_cons_iff hdigit hpos]

theorem naturalValue_eq_some_iff : naturalValue text = some n ↔ Spells text n := by
  have hplus (rest : List Char) : ¬ Pads ('+' :: rest) n := fun h ↦ by
    obtain ⟨digit, hdigit⟩ := exists_digitValue_of_pads h List.mem_cons_self
    cases hdigit
  unfold naturalValue
  split
  · refine iff_of_false nofun ?_
    rintro (h | ⟨rest, hrest, -⟩)
    · exact not_pads_nil h
    · cases hrest
  · rename_i c rest
    rw [digitsValue_zero (List.cons_ne_nil _ _), Spells, or_iff_right (hplus _)]
    constructor
    · exact fun h ↦ ⟨_, rfl, h⟩
    · rintro ⟨_, hrest, h⟩
      rwa [(List.cons.inj hrest).2]
  · -- A sign that nothing comes after is not passed over, and is no digit.
    rename_i c rest hsign
    rw [digitsValue_zero (List.cons_ne_nil _ _), Spells, or_iff_left]
    rintro ⟨more, hmore, h⟩
    obtain ⟨rfl, rfl⟩ := List.cons.inj hmore
    cases rest with
    | nil => exact not_pads_nil h
    | cons d others => exact hsign d others rfl rfl

/-- The texts that are read as a number are those that spell it. -/
theorem word64?_eq_some_iff {text : String} {v : UInt64} :
    word64? text = some v ↔ Spells text.toList v.toNat := by
  rw [word64?, Option.bind_eq_some_iff]
  constructor
  · rintro ⟨n, hn, h⟩
    split at h
    · rename_i hsmall
      obtain rfl := Option.some.inj h
      rw [UInt64.toNat_ofNat_of_lt' hsmall]
      exact naturalValue_eq_some_iff.1 hn
    · cases h
  · intro h
    exact ⟨v.toNat, naturalValue_eq_some_iff.2 h, by
      rw [if_pos v.toNat_lt, UInt64.ofNat_toNat]⟩

end TensorInference.Text
