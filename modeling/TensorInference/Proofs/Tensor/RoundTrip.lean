import TensorInference.Proofs.Tensor.Elements

/-!
# Values in bytes

The values of a tensor stand one after the other, each in the bytes of its type and with its lowest
byte first: integers in two's complement, floating-point numbers by their bits, whatever these are.
What is written is read back. What is read from any bytes, written again, gives these bytes up to
the end of the last whole element. Bytes that are joined at the end of an element hold the elements
of both. Main statement: `stores_patterns_and_values`.
-/

namespace TensorInference

open Model

namespace Bytes

/-- The bytes of a number are its digits in base 256, lowest first. -/
theorem getElem?_ofNat {width j : Nat} (hj : j < width) (value : Nat) :
    (ofNat width value)[j]? = some (UInt8.ofNat (value / 256 ^ j % 256)) := by
  induction width generalizing value j with
  | zero => exact absurd hj (Nat.not_lt_zero j)
  | succ width ih =>
    cases j with
    | zero => rw [ofNat, List.getElem?_cons_zero, Nat.pow_zero, Nat.div_one]
    | succ j =>
      rw [ofNat, List.getElem?_cons_succ, ih (Nat.lt_of_succ_lt_succ hj), Nat.div_div_eq_div_mul,
        Nat.pow_succ, Nat.mul_comm]

end Bytes

namespace Tensor

/-- The longest beginning of bytes that is made of whole elements of a width. -/
structure LongestWhole (width : Nat) (bytes whole : Bytes) : Prop where
  initial : whole <+: bytes
  dvd : width ∣ whole.length
  length_le : ∀ other, other <+: bytes → width ∣ other.length → other.length ≤ whole.length

/-- A way of storing lists of values in bytes, with the values that are stored faithfully and the
integers that values stand for. -/
structure Stores {α : Type} (width : Nat) (legal : α → Prop) (number : α → Int)
    (encode : List α → Bytes) (decode : Bytes → List α) : Prop where
  decode_encode : ∀ values, (∀ value ∈ values, legal value) → decode (encode values) = values
  legal_of_decode : ∀ bytes, ∀ value ∈ decode bytes, legal value
  encode_decode : ∀ bytes, LongestWhole width bytes (encode (decode bytes))
  encode_append : ∀ xs ys, encode (xs ++ ys) = encode xs ++ encode ys
  decode_append : ∀ x y, width ∣ x.length → decode (x ++ y) = decode x ++ decode y
  /-- Every value takes the bytes of the width and no others. -/
  length : ∀ values, (encode values).length = values.length * width
  /-- Byte `j` of a value is digit `j` in base 256 of its integer. The division rounds down, so
  that those of a negative integer are its digits in two's complement. -/
  digit : ∀ values k, (hk : k < values.length) → ∀ j < width, ∃ byte,
    (encode values)[k * width + j]? = some byte ∧
      (byte.toNat : Int) = number values[k] / 256 ^ j % 256

variable {width : Nat} {bytes : Bytes} {elements : List Nat} {type : ElementType}

theorem longestWhole_take (hwidth : 0 < width) :
    LongestWhole width bytes (bytes.take (bytes.length / width * width)) := by
  have hlength : (bytes.take (bytes.length / width * width)).length =
      bytes.length / width * width := by
    rw [List.length_take]
    exact Nat.min_eq_left (Nat.div_mul_le_self _ _)
  constructor
  · exact List.take_prefix _ _
  · rw [hlength]
    exact Nat.dvd_mul_left _ _
  · rintro other hinitial ⟨count, hcount⟩
    have hle := hinitial.length_le
    rw [hcount, Nat.mul_comm] at hle
    rw [hlength, hcount, Nat.mul_comm]
    exact Nat.mul_le_mul_right width ((Nat.le_div_iff_mul_le hwidth).2 hle)

/-- What is read is written as it was, without the bytes that belong to no element. -/
theorem write_read :
    write width (read width bytes) = bytes.take (bytes.length / width * width) := by
  have hgroup : ∀ group ∈ groups width (bytes.length / width) bytes,
      Bytes.ofNat width (Bytes.toNat group) = group := by
    intro group hmem
    have hofNat := Bytes.ofNat_toNat group
    rwa [length_of_mem_groups (Nat.div_mul_le_self _ _) hmem] at hofNat
  calc write width (read width bytes)
      = ((groups width (bytes.length / width) bytes).map
          fun group ↦ Bytes.ofNat width (Bytes.toNat group)).flatten := by
        rw [write, read, List.flatMap_map, List.flatMap_def]
    _ = (groups width (bytes.length / width) bytes).flatten := by
        rw [List.map_congr_left hgroup, List.map_id']
    _ = bytes.take (bytes.length / width * width) := flatten_groups _ _ _

theorem getElem?_write {k j : Nat} (hk : k < elements.length) (hj : j < width) :
    (write width elements)[k * width + j]? =
      some (UInt8.ofNat (elements[k] / 256 ^ j % 256)) := by
  induction elements generalizing k with
  | nil => exact absurd hk (Nat.not_lt_zero k)
  | cons element rest ih =>
    have hwrite : write width (element :: rest) =
        Bytes.ofNat width element ++ write width rest := List.flatMap_cons
    have hlength := Bytes.length_ofNat width element
    rw [hwrite]
    cases k with
    | zero =>
      rw [Nat.zero_mul, Nat.zero_add, List.getElem?_append_left (hlength.symm ▸ hj),
        Bytes.getElem?_ofNat hj, List.getElem_cons_zero]
    | succ k =>
      have hplace : (k + 1) * width + j =
          (Bytes.ofNat width element).length + (k * width + j) := by
        rw [hlength, Nat.succ_mul]
        omega
      rw [hplace, List.getElem?_append_right (Nat.le_add_right _ _), Nat.add_sub_cancel_left]
      exact ih (Nat.lt_of_succ_lt_succ hk)

theorem stores_patterns (type : ElementType) :
    Stores type.width (· < modulus type) (fun element ↦ (element : Int)) (write type.width)
      (read type.width) where
  decode_encode := by
    intro elements hlegal
    rw [modulus_eq_pow] at hlegal
    exact read_write type.width_pos hlegal
  legal_of_decode := fun _ _ ↦ lt_modulus_of_mem_read
  encode_decode := by
    intro bytes
    rw [write_read]
    exact longestWhole_take type.width_pos
  encode_append := fun _ _ ↦ write_append
  decode_append := by
    rintro x y ⟨count, hcount⟩
    rw [Nat.mul_comm] at hcount
    exact read_append type.width_pos hcount
  length := length_write type.width
  digit := by
    intro elements k hk j hj
    refine ⟨_, getElem?_write hk hj, ?_⟩
    rw [UInt8.toNat_ofNat', Nat.mod_mod]
    norm_cast

/-- The least value of a type. -/
def leastValue (type : ElementType) : Int :=
  match interpretation type with
  | .integer => -2 ^ (8 * type.width - 1)
  | _ => 0

/-- Whether a type has a value. There are as many values as patterns. A floating-point number is
taken by its bits. -/
def HasValue (type : ElementType) (value : Int) : Prop :=
  leastValue type ≤ value ∧ value < leastValue type + 2 ^ (8 * type.width)

instance (type : ElementType) (value : Int) : Decidable (HasValue type value) :=
  inferInstanceAs (Decidable (_ ∧ _))

/-- The pattern of a value. That of a negative one is its complement to the modulus. -/
def patternOf (type : ElementType) (value : Int) : Nat :=
  (value % modulus type).toNat

/-- The values that bytes hold. -/
def readValues (type : ElementType) (bytes : Bytes) : List Int :=
  (read type.width bytes).map (integerValue type)

/-- The bytes of values. -/
def writeValues (type : ElementType) (values : List Int) : Bytes :=
  write type.width (values.map (patternOf type))

variable {value : Int} {element : Nat}

theorem natCast_patternOf : (patternOf type value : Int) = value % modulus type :=
  Int.toNat_of_nonneg (Int.emod_nonneg _ (Int.natCast_ne_zero.2 modulus_pos.ne'))

theorem patternOf_lt : patternOf type value < modulus type := by
  rw [← Int.ofNat_lt, natCast_patternOf]
  exact Int.emod_lt_of_pos _ (Int.natCast_pos.2 modulus_pos)

theorem patternOf_integerValue (h : element < modulus type) :
    patternOf type (integerValue type element) = element := by
  rw [← Int.natCast_inj, natCast_patternOf, integerValue_modEq, ← Int.natCast_mod,
    Nat.mod_eq_of_lt h]

/-- The negative values of a signed type are half of its values. -/
theorem two_mul_leastValue (h : interpretation type = .integer) :
    2 * leastValue type = -modulus type := by
  have hsplit : 8 * type.width = 8 * type.width - 1 + 1 := by
    have hwidth := type.width_pos
    omega
  have hleast : leastValue type = -2 ^ (8 * type.width - 1) := by
    rw [leastValue, h]
  rw [hleast, modulus_eq_two_pow, hsplit, Nat.add_sub_cancel, pow_succ, mul_neg, mul_comm]

theorem hasValue_iff :
    HasValue type value ↔ leastValue type ≤ value ∧ value < leastValue type + modulus type := by
  rw [HasValue, modulus_eq_two_pow]

theorem hasValue_integerValue (h : element < modulus type) :
    HasValue type (integerValue type element) := by
  rw [hasValue_iff, integerValue]
  split
  · rename_i hinteger
    have hleast := two_mul_leastValue hinteger
    split <;> omega
  · rename_i hinteger
    have hleast : leastValue type = 0 := by
      unfold leastValue
      split
      · exact absurd ‹_› hinteger
      · rfl
    omega

/-- Among as many successive integers as there are patterns, no two differ by a multiple of this
number. -/
theorem HasValue.eq_of_modEq {other : Int} (h : HasValue type value) (hother : HasValue type other)
    (hmod : value ≡ other [ZMOD modulus type]) : value = other := by
  rw [hasValue_iff] at h hother
  have hsmall : |other - value| < modulus type := by
    rw [abs_lt]
    omega
  have hzero := Int.eq_zero_of_abs_lt_dvd hmod.dvd hsmall
  omega

theorem integerValue_patternOf (h : HasValue type value) :
    integerValue type (patternOf type value) = value := by
  apply (hasValue_integerValue patternOf_lt).eq_of_modEq h
  have hmod := @integerValue_modEq type (patternOf type value)
  rw [natCast_patternOf] at hmod
  exact hmod.trans (Int.mod_modEq _ _)

/-- The digits of a value are those of its pattern. -/
theorem patternOf_div_mod {j : Nat} (hj : j < type.width) :
    (patternOf type value : Int) / 256 ^ j % 256 = value / 256 ^ j % 256 := by
  have hmodulus : (modulus type : Int) = 256 ^ j * (256 ^ (type.width - j - 1) * 256) := by
    rw [← pow_succ, ← pow_add, modulus_eq_pow, Int.natCast_pow]
    congr 1
    omega
  have hvalue : value = patternOf type value + modulus type * (value / modulus type) := by
    rw [natCast_patternOf, Int.emod_add_mul_ediv]
  have hpower : (256 : Int) ^ j ≠ 0 := pow_ne_zero j (by decide)
  calc (patternOf type value : Int) / 256 ^ j % 256
      = (patternOf type value / 256 ^ j +
          256 ^ (type.width - j - 1) * 256 * (value / modulus type)) % 256 := by
        rw [mul_right_comm, Int.add_mul_emod_self_right]
    _ = (patternOf type value + modulus type * (value / modulus type)) / 256 ^ j % 256 := by
        rw [hmodulus, mul_assoc (256 ^ j), Int.add_mul_ediv_left _ _ hpower]
    _ = value / 256 ^ j % 256 := by rw [← hvalue]

theorem writeValues_readValues :
    writeValues type (readValues type bytes) = write type.width (read type.width bytes) := by
  have hpattern : ∀ element ∈ read type.width bytes,
      (patternOf type ∘ integerValue type) element = element :=
    fun _ helement ↦ patternOf_integerValue (lt_modulus_of_mem_read helement)
  rw [writeValues, readValues, List.map_map, List.map_congr_left hpattern, List.map_id']

theorem readValues_writeValues {values : List Int} (h : ∀ value ∈ values, HasValue type value) :
    readValues type (writeValues type values) = values := by
  have hlegal : ∀ element ∈ values.map (patternOf type), element < modulus type := by
    rw [List.forall_mem_map]
    exact fun _ _ ↦ patternOf_lt
  have hvalue : ∀ value ∈ values, (integerValue type ∘ patternOf type) value = value :=
    fun value hmem ↦ integerValue_patternOf (h value hmem)
  rw [readValues, writeValues, (stores_patterns type).decode_encode _ hlegal, List.map_map,
    List.map_congr_left hvalue, List.map_id']

/-- The elements of a type are stored faithfully, as patterns and as values. -/
theorem stores_patterns_and_values (type : ElementType) :
    Stores type.width (· < modulus type) (fun element ↦ (element : Int)) (write type.width)
        (read type.width) ∧
      Stores type.width (HasValue type) (fun value ↦ value) (writeValues type)
        (readValues type) := by
  have hpatterns := stores_patterns type
  refine ⟨hpatterns, ?_, ?_, ?_, ?_, ?_, ?_, ?_⟩
  · exact fun _ ↦ readValues_writeValues
  · intro bytes
    unfold readValues
    rw [List.forall_mem_map]
    exact fun element helement ↦ hasValue_integerValue (lt_modulus_of_mem_read helement)
  · intro bytes
    rw [writeValues_readValues]
    exact hpatterns.encode_decode bytes
  · intro xs ys
    rw [writeValues, List.map_append, hpatterns.encode_append, writeValues, writeValues]
  · intro x y hdvd
    rw [readValues, hpatterns.decode_append x y hdvd, List.map_append, readValues, readValues]
  · intro values
    rw [writeValues, hpatterns.length, List.length_map]
  · intro values k hk j hj
    obtain ⟨byte, hbyte, hdigit⟩ :=
      hpatterns.digit (values.map (patternOf type)) k (by rwa [List.length_map]) j hj
    refine ⟨byte, hbyte, ?_⟩
    rw [hdigit, List.getElem_map, patternOf_div_mod hj]

/-- The bounds of a signed type, and a NaN with a payload before a part of an element. -/
theorem stores_patterns_and_values_bounds :
    (∀ value ∈ [-32768, -1, 32767], HasValue .int16 value) ∧
      readValues .int16 (writeValues .int16 [-32768, -1, 32767]) = [-32768, -1, 32767] ∧
      LongestWhole 4 [0x01, 0x00, 0xa0, 0x7f, 0x05, 0x06]
        (write 4 (read 4 [0x01, 0x00, 0xa0, 0x7f, 0x05, 0x06])) := by
  have hvalues : ∀ value ∈ [-32768, -1, 32767], HasValue .int16 value := by decide
  have hintegers := (stores_patterns_and_values .int16).2
  have hnumbers := (stores_patterns_and_values .fp32).1
  exact ⟨hvalues, hintegers.decode_encode _ hvalues, hnumbers.encode_decode _⟩

end Tensor

end TensorInference
