import Mathlib.Data.Int.ModEq
import TensorInference.Proofs.Binary.Arithmetic
import TensorInference.Tensor.Elements

/-!
# Element-wise work on tensors

The element at a position is the little-endian number in the bytes at that position. Reading gives
all elements, and reading what was written gives the elements back if they are patterns of the
width. Sums and differences of patterns are patterns again, and stand for the sums and differences
of the integers up to the modulus of their type.
-/

namespace TensorInference

open Model

namespace Bytes

theorem toNat_lt (bytes : Bytes) : toNat bytes < 256 ^ bytes.length := by
  induction bytes with
  | nil => simp [toNat]
  | cons byte rest ih =>
    have hbyte : byte.toNat < 256 := byte.toNat_lt
    simp only [toNat, List.length_cons, Nat.pow_succ]
    omega

theorem toNat_ofNat (width value : Nat) : toNat (ofNat width value) = value % 256 ^ width := by
  induction width generalizing value with
  | zero => simp [toNat, ofNat, Nat.mod_one]
  | succ width ih =>
    have hdigit : (UInt8.ofNat (value % 256)).toNat = value % 256 := by
      simp [UInt8.toNat_ofNat']
    rw [ofNat, toNat, hdigit, ih, Nat.pow_succ, Nat.mul_comm (256 ^ width) 256, Nat.mod_mul]

end Bytes

namespace Tensor

variable {width : Nat} {bytes : Bytes} {elements : List Nat}

/-- The element at a position. -/
def element (width : Nat) (bytes : Bytes) (k : Nat) : Nat :=
  Bytes.toNat ((bytes.drop (k * width)).take width)

/-- The block at a position. -/
def block {α : Type} (width : Nat) (items : List α) (k : Nat) : List α :=
  (items.drop (k * width)).take width

theorem groups_eq_map {α : Type} (count : Nat) (items : List α) :
    groups width count items = (List.range count).map (block width items) := by
  induction count generalizing items with
  | zero => rfl
  | succ count ih =>
    rw [groups, ih, List.range_succ_eq_map, List.map_cons, List.map_map, block, Nat.zero_mul,
      List.drop_zero]
    congr 1
    apply List.map_congr_left
    intro k _
    rw [Function.comp_apply, block, block, List.drop_drop, Nat.succ_mul, Nat.add_comm]

/-- Reading gives the elements at all positions. -/
theorem read_eq_map : read width bytes =
    (List.range (bytes.length / width)).map (element width bytes) := by
  rw [read, groups_eq_map, List.map_map]
  rfl

theorem length_read : (read width bytes).length = bytes.length / width := by
  rw [read_eq_map, List.length_map, List.length_range]

theorem getElem?_read {k : Nat} (h : k < bytes.length / width) :
    (read width bytes)[k]? = some (element width bytes k) := by
  rw [read_eq_map, List.getElem?_map, List.getElem?_range h, Option.map_some]

theorem read_write (hwidth : 0 < width) (h : ∀ element ∈ elements, element < 256 ^ width) :
    read width (write width elements) = elements := by
  rw [read, length_write, Nat.mul_div_cancel _ hwidth]
  induction elements with
  | nil => rfl
  | cons element rest ih =>
    rw [List.forall_mem_cons] at h
    have hlength := Bytes.length_ofNat width element
    have hfirst : Bytes.toNat (Bytes.ofNat width element) = element := by
      rw [Bytes.toNat_ofNat, Nat.mod_eq_of_lt h.1]
    rw [write, List.flatMap_cons, List.length_cons, groups, List.take_left' hlength,
      List.drop_left' hlength, List.map_cons, hfirst]
    exact congrArg _ (ih h.2)

theorem length_take_block {α : Type} {items : List α} {count : Nat}
    (h : items.length = (count + 1) * width) : (items.take width).length = width := by
  rw [List.length_take, h, Nat.succ_mul]
  exact Nat.min_eq_left (Nat.le_add_left _ _)

theorem length_drop_block {α : Type} {items : List α} {count : Nat}
    (h : items.length = (count + 1) * width) : (items.drop width).length = count * width := by
  rw [List.length_drop, h, Nat.succ_mul, Nat.add_sub_cancel]

/-- Reading takes the elements off the front. -/
theorem read_of_le (hwidth : 0 < width) (h : width ≤ bytes.length) :
    read width bytes = Bytes.toNat (bytes.take width) :: read width (bytes.drop width) := by
  have hcount : bytes.length / width = (bytes.drop width).length / width + 1 := by
    rw [List.length_drop, ← Nat.add_div_right _ hwidth, Nat.sub_add_cancel h]
  rw [read, hcount, groups, List.map_cons, read]

/-- What starts with whole elements is read block by block. -/
theorem read_append {x y : Bytes} {count : Nat} (hwidth : 0 < width)
    (h : x.length = count * width) : read width (x ++ y) = read width x ++ read width y := by
  induction count generalizing x with
  | zero =>
    obtain rfl : x = [] := List.length_eq_zero_iff.1 (by rw [h, Nat.zero_mul])
    rw [List.nil_append, read, read, List.length_nil, Nat.zero_div]
    rfl
  | succ count ih =>
    have hle : width ≤ x.length := by
      rw [h, Nat.succ_mul]
      exact Nat.le_add_left _ _
    have hlong : width ≤ (x ++ y).length := by
      rw [List.length_append]
      exact Nat.le_add_right_of_le hle
    rw [read_of_le hwidth hlong, read_of_le hwidth hle, List.take_append_of_le_length hle,
      List.drop_append_of_le_length hle, ih (length_drop_block h), List.cons_append]

theorem write_append {xs ys : List Nat} :
    write width (xs ++ ys) = write width xs ++ write width ys :=
  List.flatMap_append

theorem length_block {α : Type} {items : List α} {count k : Nat} (h : items.length = count * width)
    (hk : k < count) : (block width items k).length = width := by
  have hle : (k + 1) * width ≤ count * width := Nat.mul_le_mul_right width hk
  rw [Nat.succ_mul] at hle
  rw [block, List.length_take, List.length_drop, h]
  omega

theorem length_of_mem_groups {α : Type} {count : Nat} {items group : List α}
    (h : count * width ≤ items.length) (hgroup : group ∈ groups width count items) :
    group.length = width := by
  induction count generalizing items with
  | zero => simp [groups] at hgroup
  | succ count ih =>
    rw [Nat.succ_mul] at h
    rw [groups, List.mem_cons] at hgroup
    rcases hgroup with rfl | hrest
    · rw [List.length_take]
      omega
    · refine ih ?_ hrest
      rw [List.length_drop]
      omega

/-- The groups of joined blocks are the blocks. -/
theorem groups_flatten {α : Type} {blocks : List (List α)}
    (h : ∀ block ∈ blocks, block.length = width) :
    groups width blocks.length blocks.flatten = blocks := by
  induction blocks with
  | nil => rfl
  | cons first rest ih =>
    rw [List.forall_mem_cons] at h
    rw [List.length_cons, groups, List.flatten_cons, List.take_left' h.1, List.drop_left' h.1,
      ih h.2]

theorem length_flatten {α : Type} {blocks : List (List α)}
    (h : ∀ block ∈ blocks, block.length = width) :
    blocks.flatten.length = blocks.length * width := by
  rw [List.length_flatten, List.map_congr_left h, List.map_const',
    List.sum_replicate_nat]

theorem groups_map {α β : Type} (f : α → β) (count : Nat) (items : List α) :
    groups width count (items.map f) = (groups width count items).map (List.map f) := by
  induction count generalizing items with
  | zero => rfl
  | succ count ih =>
    rw [groups, groups, List.map_cons, List.map_take, List.map_drop.symm, ih]

/-- Blocks of whole elements are read to blocks of as many elements. -/
theorem groups_read {volume count : Nat} (hwidth : 0 < width)
    (h : bytes.length = count * (volume * width)) :
    groups volume count (read width bytes) =
      (groups (volume * width) count bytes).map (read width) := by
  induction count generalizing bytes with
  | zero => rfl
  | succ count ih =>
    have hfirst := length_take_block h
    have hvolume : (read width (bytes.take (volume * width))).length = volume := by
      rw [length_read, hfirst, Nat.mul_div_cancel _ hwidth]
    have hread := @read_append width _ (bytes.drop (volume * width)) _ hwidth hfirst
    rw [List.take_append_drop] at hread
    rw [groups, groups, List.map_cons, hread, List.take_left' hvolume, List.drop_left' hvolume,
      ih (length_drop_block h)]

variable {type : ElementType}

theorem modulus_eq_pow : modulus type = 256 ^ type.width := by
  rw [modulus, Nat.one_shiftLeft, Nat.pow_mul]

theorem modulus_pos : 0 < modulus type := by
  rw [modulus_eq_pow]
  exact Nat.pow_pos (by omega)

theorem modulus_eq_two_pow : (modulus type : Int) = 2 ^ (8 * type.width) := by
  rw [modulus_eq_pow, Int.natCast_pow, pow_mul]
  rfl

/-- What is read are patterns of the type. -/
theorem element_lt_modulus (data : Bytes) (k : Nat) : element type.width data k < modulus type := by
  rw [modulus_eq_pow, element]
  refine Nat.lt_of_lt_of_le (Bytes.toNat_lt _) (Nat.pow_le_pow_right (by decide) ?_)
  exact List.length_take_le _ _

theorem lt_modulus_of_mem_read {data : Bytes} {pattern : Nat}
    (h : pattern ∈ read type.width data) : pattern < modulus type := by
  rw [read_eq_map] at h
  obtain ⟨k, hk, rfl⟩ := List.mem_map.1 h
  exact element_lt_modulus data k

/-- The patterns of a floating-point type are those of its format. -/
theorem modulus_of_real {format : Binary.Format} (h : interpretation type = .real format) :
    2 ≤ format.precision ∧ modulus type = format.patterns := by
  cases type <;> simp only [interpretation, reduceCtorEq, Interpretation.real.injEq] at h <;>
    subst h <;> decide

theorem add_lt_modulus (a b : Nat) : add type a b < modulus type := by
  unfold add
  split
  · rename_i format hformat
    obtain ⟨hprecision, hpatterns⟩ := modulus_of_real hformat
    rw [hpatterns]
    exact format.add_lt hprecision a b
  · exact Nat.mod_lt _ modulus_pos

theorem sub_lt_modulus (a b : Nat) : sub type a b < modulus type := by
  unfold sub
  split
  · rename_i format hformat
    obtain ⟨hprecision, hpatterns⟩ := modulus_of_real hformat
    rw [hpatterns]
    exact format.sub_lt hprecision a b
  · exact Nat.mod_lt _ modulus_pos

/-- A pattern stands for itself up to the modulus. -/
theorem integerValue_modEq (pattern : Nat) :
    integerValue type pattern ≡ pattern [ZMOD modulus type] := by
  unfold integerValue
  split
  · split
    · exact Int.ModEq.refl _
    · exact Int.ModEq.symm (Int.modEq_iff_dvd.2 ⟨-1, by omega⟩)
  · exact Int.ModEq.refl _

/-- Whether the elements of a type are whole numbers. -/
def isInteger (type : ElementType) : Prop :=
  ∀ format, interpretation type ≠ .real format

theorem add_of_isInteger (h : isInteger type) (a b : Nat) :
    (add type a b : Int) = (integerValue type a + integerValue type b) % modulus type := by
  have hadd : add type a b = (a + b) % modulus type := by
    unfold add
    split
    · rename_i format hformat
      exact absurd hformat (h format)
    · rfl
  rw [hadd, Int.natCast_mod, Int.natCast_add]
  exact ((integerValue_modEq a).add (integerValue_modEq b)).symm

theorem sub_of_isInteger (h : isInteger type) (a b : Nat) :
    (sub type a b : Int) = (integerValue type a - integerValue type b) % modulus type := by
  have hsub : sub type a b = (a + (modulus type - b % modulus type)) % modulus type := by
    unfold sub
    split
    · rename_i format hformat
      exact absurd hformat (h format)
    · rfl
  have hle : b % modulus type ≤ modulus type := Nat.le_of_lt (Nat.mod_lt _ modulus_pos)
  -- The complement of the subtrahend stands for its negative.
  have hcomplement : ((modulus type - b % modulus type : Nat) : Int) ≡ -(b : Int)
      [ZMOD modulus type] := by
    rw [Int.natCast_sub hle, Int.natCast_mod]
    have hneg := ((Int.mod_modEq (b : Int) (modulus type)).neg).add_left (modulus type : Int)
    rw [← sub_eq_add_neg] at hneg
    exact hneg.trans (Int.ModEq.symm (Int.modEq_iff_dvd.2 ⟨1, by omega⟩))
  rw [hsub, Int.natCast_mod, Int.natCast_add]
  have hvalue := (integerValue_modEq a).sub (@integerValue_modEq type b)
  rw [sub_eq_add_neg (a : Int)] at hvalue
  exact (hvalue.trans (hcomplement.symm.add_left _)).symm

end Tensor

end TensorInference
