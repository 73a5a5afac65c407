import Mathlib.Data.Nat.Digits.Lemmas
import TensorInference.Json.Reader
import TensorInference.Proofs.Binary.Shortest
import TensorInference.Proofs.Json.Text

/-!
# Numerals as read

The reader takes the longest numeral at the front of a text, so a printed numeral is read back as
it was printed if what follows cannot continue it. `Numeral.WellFormed` is the grammar of numerals
and `EndsNumeral` says what may follow; `readNumber_magnitude` puts the two together. Every
numeral that is written for a number obeys the grammar, and the digits of a 64-bit integer have
that integer as their value.
-/

namespace TensorInference.Json

open Binary

namespace Numeral

/-- The numerals of the JSON grammar. -/
structure WellFormed (n : Numeral) : Prop where
  whole : ∀ b ∈ n.whole, isDigit b
  whole_ne : n.whole ≠ []
  /-- A leading zero stands alone. -/
  leading : n.whole.head? = some 0x30 → n.whole.length = 1
  fraction : ∀ b ∈ n.fraction, isDigit b
  exponent : ∀ sign ds, n.exponent = some (sign, ds) → ds ≠ [] ∧ ∀ b ∈ ds, isDigit b

/-- The text of an exponent. -/
def exponentBytes : Option (ExponentSign × Bytes) → Bytes
  | none => []
  | some (sign, ds) => 0x65 :: signBytes sign ++ ds

/-- The text of the digits after the point, with the point. -/
def fractionBytes (fraction : Bytes) : Bytes :=
  if fraction = [] then [] else 0x2e :: fraction

/-- The text of a numeral without its sign. -/
def magnitudeBytes (n : Numeral) : Bytes :=
  n.whole ++ (fractionBytes n.fraction ++ exponentBytes n.exponent)

theorem print_eq (n : Numeral) :
    n.print = (if n.negative then [0x2d] else []) ++ n.magnitudeBytes := by
  obtain ⟨negative, whole, fraction, exponent⟩ := n
  cases exponent <;> simp [print, magnitudeBytes, fractionBytes, exponentBytes]

end Numeral

theorem ne_of_isDigit {d b : UInt8} (hd : Numeral.isDigit d) (hb : Numeral.isDigit b = false) :
    d ≠ b := by
  rintro rfl
  rw [hd] at hb
  cases hb

/-- A text that does not continue a numeral. -/
def EndsNumeral (rest : Bytes) : Prop :=
  ∀ b ∈ rest.head?, Numeral.isDigit b = false ∧ b ≠ 0x2e ∧ b ≠ 0x65 ∧ b ≠ 0x45

theorem endsNumeral_nil : EndsNumeral [] := nofun

theorem endsNumeral_cons {b : UInt8} {rest : Bytes}
    (h : Numeral.isDigit b = false ∧ b ≠ 0x2e ∧ b ≠ 0x65 ∧ b ≠ 0x45) : EndsNumeral (b :: rest) := by
  rintro _ ⟨⟩
  exact h

/-- Digits are split off up to the first byte that is none. -/
theorem digits_append {ds rest : Bytes} (hds : ∀ b ∈ ds, Numeral.isDigit b)
    (hrest : ∀ b ∈ rest.head?, Numeral.isDigit b = false) : digits (ds ++ rest) = (ds, rest) := by
  have hstop : rest.takeWhile Numeral.isDigit = [] ∧ rest.dropWhile Numeral.isDigit = rest := by
    cases rest with
    | nil => exact ⟨rfl, rfl⟩
    | cons b rest => simp [hrest b rfl]
  rw [digits, List.takeWhile_append_of_pos hds, List.dropWhile_append_of_pos hds, hstop.1, hstop.2,
    List.append_nil]

theorem readExponent_exponentBytes {negative : Bool} {whole fraction rest : Bytes}
    {exponent : Option (ExponentSign × Bytes)}
    (hexponent : ∀ sign ds, exponent = some (sign, ds) → ds ≠ [] ∧ ∀ b ∈ ds, Numeral.isDigit b)
    (hrest : EndsNumeral rest) :
    readExponent negative whole fraction (Numeral.exponentBytes exponent ++ rest) =
      (.number ⟨negative, whole, fraction, exponent⟩, rest) := by
  rcases exponent with _ | ⟨sign, ds⟩
  · cases rest with
    | nil => rfl
    | cons b rest =>
      obtain ⟨-, -, he, hE⟩ := hrest b rfl
      simp [Numeral.exponentBytes, readExponent, he, hE]
  · obtain ⟨hne, hds⟩ := hexponent sign ds rfl
    obtain ⟨d, ds, rfl⟩ := List.exists_cons_of_ne_nil hne
    have hsplit := digits_append hds fun b hb => (hrest b hb).1
    have hd : d ≠ 0x2b ∧ d ≠ 0x2d := by
      have : Numeral.isDigit d := hds d List.mem_cons_self
      constructor <;> rintro rfl <;> exact absurd this (by decide)
    rw [List.cons_append] at hsplit
    cases sign with
    | absent => simp [Numeral.exponentBytes, Numeral.signBytes, readExponent, hd, hsplit]
    | plus => simp [Numeral.exponentBytes, Numeral.signBytes, readExponent, hsplit]
    | minus => simp [Numeral.exponentBytes, Numeral.signBytes, readExponent, hsplit]

/-- What follows the whole digits, or the digits after the point, continues neither. -/
theorem head?_exponentBytes {exponent : Option (ExponentSign × Bytes)} {rest : Bytes}
    (hrest : EndsNumeral rest) :
    ∀ b ∈ (Numeral.exponentBytes exponent ++ rest).head?,
      Numeral.isDigit b = false ∧ b ≠ 0x2e := by
  rcases exponent with _ | ⟨sign, ds⟩
  · exact fun b hb => ⟨(hrest b hb).1, (hrest b hb).2.1⟩
  · rintro _ ⟨⟩
    decide

theorem readFraction_fractionBytes {negative : Bool} {whole fraction rest : Bytes}
    {exponent : Option (ExponentSign × Bytes)} (hfraction : ∀ b ∈ fraction, Numeral.isDigit b)
    (hexponent : ∀ sign ds, exponent = some (sign, ds) → ds ≠ [] ∧ ∀ b ∈ ds, Numeral.isDigit b)
    (hrest : EndsNumeral rest) :
    readFraction negative whole
        (Numeral.fractionBytes fraction ++ (Numeral.exponentBytes exponent ++ rest)) =
      (.number ⟨negative, whole, fraction, exponent⟩, rest) := by
  have hread := @readExponent_exponentBytes negative whole fraction rest exponent hexponent hrest
  have hhead := @head?_exponentBytes exponent rest hrest
  cases fraction with
  | nil =>
    generalize Numeral.exponentBytes exponent ++ rest = tail at hread hhead
    cases tail with
    | nil => exact hread
    | cons b tail => simpa [Numeral.fractionBytes, readFraction, (hhead b rfl).2] using hread
  | cons d ds =>
    have hsplit := digits_append hfraction fun b hb => (hhead b hb).1
    rw [List.cons_append] at hsplit
    simpa [Numeral.fractionBytes, readFraction, hsplit] using hread

/-- A numeral of the grammar is read back, after its sign, from any text that it cannot run into. -/
theorem readNumber_magnitudeBytes {n : Numeral} (hn : n.WellFormed) {rest : Bytes}
    (hrest : EndsNumeral rest) :
    readNumber n.negative (n.magnitudeBytes ++ rest) = (.number n, rest) := by
  obtain ⟨negative, whole, fraction, exponent⟩ := n
  obtain ⟨d, ds, rfl⟩ := List.exists_cons_of_ne_nil hn.whole_ne
  have hhead : ∀ b ∈ (Numeral.fractionBytes fraction ++
      (Numeral.exponentBytes exponent ++ rest)).head?, Numeral.isDigit b = false := by
    cases fraction with
    | nil => exact fun b hb => (head?_exponentBytes hrest b hb).1
    | cons => rintro _ ⟨⟩; decide
  have hsplit := digits_append hn.whole hhead
  rw [List.cons_append] at hsplit
  have hzero : ¬ ((d :: ds).head? = some 0x30 ∧ (d :: ds).length ≠ 1) :=
    fun h => h.2 (hn.leading h.1)
  simp only [Numeral.magnitudeBytes, List.append_assoc, List.cons_append, readNumber, hsplit]
  rw [if_neg hzero]
  exact readFraction_fractionBytes hn.fraction hn.exponent hrest

namespace Numeral

theorem digitBytes_eq_if (n : Nat) :
    digitBytes n =
      if n < 10 then [UInt8.ofNat (48 + n)]
      else digitBytes (n / 10) ++ [UInt8.ofNat (48 + n % 10)] := by
  rw [digitBytes, Nat.toDigits_eq_if (by decide)]
  split
  · rename_i h
    simp [Nat.toNat_digitChar_of_lt_ten h]
  · simp [digitBytes, Nat.toNat_digitChar_of_lt_ten (Nat.mod_lt n (by decide))]

private theorem isDigit_ofNat {d : Nat} (h : d < 10) :
    isDigit (UInt8.ofNat (48 + d)) ∧ digitOf (UInt8.ofNat (48 + d)) = d := by
  interval_cases d <;> decide

theorem digitBytes_ne (n : Nat) : digitBytes n ≠ [] := by
  rw [digitBytes_eq_if]
  split <;> simp

theorem isDigit_of_mem_digitBytes (n : Nat) : ∀ b ∈ digitBytes n, isDigit b := by
  induction n using Nat.strong_induction_on with
  | h n ih =>
    rw [digitBytes_eq_if]
    split
    · rename_i h
      simpa using (isDigit_ofNat h).1
    · intro b hb
      rcases List.mem_append.1 hb with hb | hb
      · exact ih (n / 10) (by omega) b hb
      · exact List.mem_singleton.1 hb ▸ (isDigit_ofNat (Nat.mod_lt n (by decide))).1

/-- The first digit of a positive number is not zero. -/
theorem head?_digitBytes {n : Nat} (h : n ≠ 0) : (digitBytes n).head? ≠ some 0x30 := by
  induction n using Nat.strong_induction_on with
  | h n ih =>
    rw [digitBytes_eq_if]
    split
    · rename_i hlt
      interval_cases n <;> first | exact absurd rfl h | decide
    · rw [List.head?_append_of_ne_nil _ (digitBytes_ne _)]
      exact ih (n / 10) (by omega) (by omega)

theorem digitBytes_zero : digitBytes 0 = [0x30] := by
  rw [digitBytes_eq_if]
  rfl

/-- Only zero is written with a leading zero. -/
theorem length_digitBytes_of_head? {n : Nat} (h : (digitBytes n).head? = some 0x30) :
    (digitBytes n).length = 1 := by
  by_cases hn : n = 0
  · subst hn
    rw [digitBytes_zero]
    rfl
  · exact absurd h (head?_digitBytes hn)

theorem wellFormed_of_digits {negative : Bool} {n : Nat} {fraction : Bytes}
    (hfraction : ∀ b ∈ fraction, isDigit b) :
    WellFormed ⟨negative, digitBytes n, fraction, none⟩ :=
  ⟨isDigit_of_mem_digitBytes n, digitBytes_ne n, length_digitBytes_of_head?, hfraction, nofun⟩

theorem wellFormed_ofNat (n : Nat) : (ofNat n).WellFormed :=
  wellFormed_of_digits (by simp)

theorem wellFormed_ofInt (n : Int) : (ofInt n).WellFormed :=
  wellFormed_of_digits (by simp)

/-- The text of a natural number is made of its digits. -/
theorem ofText_toString (n : Nat) : Bytes.ofText (toString n) = digitBytes n := by
  have hdigit : ∀ c ∈ Nat.toDigits 10 n, String.utf8EncodeChar c = [UInt8.ofNat c.toNat] := by
    intro c hc
    have hc : c.isDigit := Nat.isDigit_of_mem_toDigits (by decide) (by decide) hc
    have hle : c.val.toNat ≤ 0x7f := by
      simp only [Char.isDigit, Bool.and_eq_true, decide_eq_true_eq] at hc
      exact Nat.le_trans (UInt32.le_iff_toNat_le.1 hc.2) (by decide)
    rw [String.utf8EncodeChar, if_pos hle]
    rfl
  change (Nat.repr n).toUTF8.data.toList = _
  rw [Nat.repr_eq_ofList_toDigits, String.toUTF8, String.toByteArray_ofList, List.utf8Encode,
    List.toList_data_toByteArray, List.flatMap_congr hdigit, digitBytes]
  exact List.flatMap_pure_eq_map _ _

/-- Digits stand for themselves in a string. -/
theorem escape_digitBytes (n : Nat) : escape (digitBytes n) = digitBytes n := by
  have hplain : ∀ b ∈ digitBytes n, escapeByte b = [b] := by
    intro b hb
    have hb : isDigit b := isDigit_of_mem_digitBytes n b hb
    have hcontrol : ¬ b < 0x20 := by
      simp only [isDigit, Bool.and_eq_true, decide_eq_true_eq] at hb
      exact UInt8.not_lt.2 (UInt8.le_trans (by decide) hb.1)
    exact escapeByte_plain (ne_of_isDigit hb (by decide)) (ne_of_isDigit hb (by decide)) hcontrol
  rw [escape, List.flatMap_congr hplain, List.flatMap_singleton']

theorem absorb_append {s t : Bytes} {m n : Nat} (h : absorb m s = (n, 0)) :
    absorb m (s ++ t) = absorb n t := by
  induction s generalizing m with
  | nil =>
    obtain ⟨rfl, -⟩ := Prod.mk.inj h
    rfl
  | cons d s ih =>
    rw [absorb] at h
    split at h
    · rename_i hlt
      rw [List.cons_append, absorb, if_pos hlt]
      exact ih h
    · simp at h

/-- The digits of a 64-bit number are absorbed to the last one. -/
theorem absorb_digitBytes {n : Nat} (h : n < UInt64.size) : absorb 0 (digitBytes n) = (n, 0) := by
  induction n using Nat.strong_induction_on with
  | h n ih =>
    rw [digitBytes_eq_if]
    split
    · rename_i hlt
      simp only [absorb, (isDigit_ofNat hlt).2, Nat.mul_zero, Nat.zero_add, if_pos h]
    · have hlt : n / 10 < UInt64.size := by omega
      have hn : 10 * (n / 10) + n % 10 = n := Nat.div_add_mod n 10
      rw [absorb_append (ih (n / 10) (by omega) hlt)]
      simp only [absorb, (isDigit_ofNat (Nat.mod_lt n (by decide))).2, hn, if_pos h]

/-- A 64-bit natural number is the value of its numeral. -/
theorem value?_ofNat (n : UInt64) : (ofNat n.toNat).value? = some (.natural n) := by
  have h := absorb_digitBytes n.toNat_lt
  simp [value?, ofNat, h]

/-- A 64-bit integer is the value of its numeral. -/
theorem value?_ofInt (n : Int64) :
    (ofInt n.toInt).value? =
      some (if n.toInt < 0 then .negative n else .natural (UInt64.ofNat n.toInt.toNat)) := by
  have hlow := n.le_toInt
  have hhigh := n.toInt_lt
  have h := absorb_digitBytes (n := n.toInt.natAbs) (by simp [UInt64.size]; omega)
  by_cases hn : n.toInt < 0
  · have hneg : -(n.toInt.natAbs : Int) = n.toInt := by omega
    have hrange : 0 < n.toInt.natAbs ∧ n.toInt.natAbs ≤ 1 <<< 63 := by
      constructor <;> simp <;> omega
    simp only [value?, ofInt, h, hn, decide_true, if_true, and_self, hrange, hneg,
      Int64.ofInt_toInt]
  · have habs : n.toInt.natAbs = n.toInt.toNat := by omega
    rw [habs] at h
    simp only [value?, ofInt, habs, h, hn, decide_false, Bool.false_eq_true, if_false, and_self,
      if_true]

/-! ## Written numbers of binary formats -/

/-- Digits in front of which zeros would be lost: no leading zero unless the number is zero. -/
theorem wellFormed_ofDecimal (layout : Layout) (negative : Bool) {d : Decimal}
    (hd : d.digits = 0 → d.exponent = 0) : (ofDecimal layout negative d).WellFormed := by
  have hdigits := isDigit_of_mem_digitBytes d.digits
  have hlength : 0 < (digitBytes d.digits).length :=
    List.length_pos_iff.2 (digitBytes_ne d.digits)
  have hzeros (k : Nat) : ∀ b ∈ List.replicate k (0x30 : UInt8), isDigit b :=
    fun b hb => List.eq_of_mem_replicate hb ▸ by decide
  have hpadded : ∀ b ∈ digitBytes d.digits ++ List.replicate d.exponent.toNat 0x30, isDigit b :=
    List.forall_mem_append.2 ⟨hdigits, hzeros _⟩
  rw [ofDecimal]
  split
  · split
    · exact ⟨hzeros 1, List.cons_ne_nil _ _, fun _ => rfl,
        List.forall_mem_append.2 ⟨hzeros _, hdigits⟩, nofun⟩
    · rename_i hleading
      refine ⟨fun b hb => hpadded b (List.mem_of_mem_take hb), ?_, fun hhead => ?_, ?_, nofun⟩
      · refine List.ne_nil_of_length_pos ?_
        simp only [List.length_take, List.length_append]
        omega
      · -- the first digit is that of the decimal, which is zero only for zero
        rw [List.head?_take, if_neg (by omega),
          List.head?_append_of_ne_nil _ (digitBytes_ne d.digits)] at hhead
        have hone := length_digitBytes_of_head? hhead
        have hexponent : d.exponent = 0 := hd (not_not.1 fun h => head?_digitBytes h hhead)
        simp only [List.length_take, List.length_append, List.length_replicate, hone, hexponent]
        rfl
      · dsimp only
        split
        · exact hzeros 1
        · exact fun b hb => hpadded b (List.mem_of_mem_drop hb)
  · refine ⟨fun b hb => hdigits b (List.mem_of_mem_take hb), ?_, fun _ => ?_,
      fun b hb => hdigits b (List.mem_of_mem_drop hb), ?_⟩
    · exact List.ne_nil_of_length_pos (by simp only [List.length_take]; omega)
    · simp only [List.length_take]
      omega
    · rintro sign ds ⟨⟩
      exact ⟨digitBytes_ne _, isDigit_of_mem_digitBytes _⟩

/-- Every number of a binary format has a numeral of the grammar. -/
theorem wellFormed_of_ofPattern {f : Format} {layout : Layout} {bits : Nat} {n : Numeral}
    (h : ofPattern f layout bits = some n) : n.WellFormed := by
  rw [ofPattern] at h
  split at h
  · rename_i negative significand exponent _
    obtain rfl := Option.some.inj h
    apply wellFormed_ofDecimal
    split
    · exact fun _ => rfl
    · rename_i hne
      exact exponent_shortest f (Nat.pos_of_ne_zero hne) exponent
  · simp at h

/-- Exactly the finite numbers of a binary format have a numeral. -/
theorem isSome_ofPattern (f : Format) (layout : Layout) (bits : Nat) :
    (ofPattern f layout bits).isSome = f.isFinite bits := by
  rw [ofPattern, Format.unpack, Format.isFinite]
  rcases Nat.lt_trichotomy (f.magnitude bits) f.infinity with hlt | heq | hgt
  · rw [decide_eq_true hlt]
    simp only [if_neg (Nat.lt_asymm hlt), if_neg (Nat.ne_of_lt hlt)]
    -- subnormal numbers have a branch of their own
    by_cases hsmall : f.magnitude bits < f.hiddenBit
    · rw [if_pos hsmall]
      rfl
    · rw [if_neg hsmall]
      rfl
  · simp [heq]
  · simp [hgt, Nat.lt_asymm hgt]

end Numeral

end TensorInference.Json
