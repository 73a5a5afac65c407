import Mathlib.Algebra.Order.BigOperators.Group.List
import Mathlib.Algebra.BigOperators.Group.List.Basic
import Mathlib.Algebra.BigOperators.Ring.List
import Mathlib.Tactic.Ring
import TensorInference.Inference.Normalization
import TensorInference.Inference.Response

/-!
# Sizes of tensors

The element count of a shape is computed in 64 bits with a check after every factor. For positive
sizes the checks together are one: the count is there exactly when the exact product of the sizes
fits, and the same holds for the bytes of a batch. So the three checked products of a request and
the unchecked product of a response speak of the same natural number where it fits; a response
takes a larger one for what is left of it in 64 bits.
-/

namespace TensorInference.Model.Shape

/-- The exact product of the sizes. -/
def volume (shape : Shape) : Nat :=
  (shape.map Int64.toNatClampNeg).prod

@[simp]
theorem volume_nil : volume [] = 1 := rfl

@[simp]
theorem volume_cons (size : Int64) (rest : Shape) :
    volume (size :: rest) = size.toNatClampNeg * volume rest := by
  simp [volume]

theorem toNatClampNeg_pos {size : Int64} (h : 0 < size) : 0 < size.toNatClampNeg := by
  rw [Int64.lt_iff_toInt_lt, Int64.toInt_zero] at h
  rw [← Int64.toNat_toInt]
  omega

theorem not_neg_of_pos {size : Int64} (h : 0 < size) : ¬ size < 0 := by
  rw [Int64.lt_iff_toInt_lt, Int64.toInt_zero] at h ⊢
  omega

theorem volume_pos {shape : Shape} (h : ∀ size ∈ shape, 0 < size) : 0 < shape.volume := by
  induction shape with
  | nil => simp
  | cons size rest ih =>
    rw [List.forall_mem_cons] at h
    rw [volume_cons]
    exact Nat.mul_pos (toNatClampNeg_pos h.1) (ih h.2)

theorem volume_eq_zero_iff {shape : Shape} (h : ∀ size ∈ shape, 0 ≤ size) :
    shape.volume = 0 ↔ 0 ∈ shape := by
  have hzero : ∀ size ∈ shape, size.toNatClampNeg = 0 ↔ size = 0 := by
    intro size hsize
    have hnonneg := h size hsize
    rw [Int64.le_iff_toInt_le, Int64.toInt_zero] at hnonneg
    rw [← Int64.toNat_toInt, ← Int64.toInt_inj, Int64.toInt_zero]
    omega
  rw [volume, List.prod_eq_zero_iff, List.mem_map]
  constructor
  · rintro ⟨size, hsize, hnone⟩
    rwa [(hzero size hsize).1 hnone] at hsize
  · exact fun hmem ↦ ⟨0, hmem, rfl⟩

theorem checkedMul_eq {a b : Nat} :
    checkedMul a b = if a * b < 2 ^ 64 then some (a * b) else none := rfl

theorem checkedMul_eq_some {a b n : Nat} :
    checkedMul a b = some n ↔ a * b < 2 ^ 64 ∧ n = a * b := by
  rw [checkedMul_eq]
  split
  · simp_all [eq_comm]
  · simp_all

/-- A count that is there is exact. -/
theorem eq_of_countFrom {shape : Shape} {count n : Nat} (h : countFrom count shape = some n) :
    n = count * shape.volume := by
  induction shape generalizing count with
  | nil => simpa [countFrom, eq_comm] using h
  | cons size rest ih =>
    rw [countFrom] at h
    split at h
    · simp at h
    · obtain ⟨next, hnext, h⟩ := Option.bind_eq_some_iff.1 h
      obtain ⟨-, rfl⟩ := checkedMul_eq_some.1 hnext
      rw [ih h, volume_cons, Nat.mul_assoc]

/-- A counted shape has no open dimensions. -/
theorem nonneg_of_countFrom {shape : Shape} {count n : Nat}
    (h : countFrom count shape = some n) : ∀ size ∈ shape, 0 ≤ size := by
  induction shape generalizing count with
  | nil => exact List.forall_mem_nil _
  | cons size rest ih =>
    rw [countFrom] at h
    split at h
    · cases h
    · rename_i hsize
      obtain ⟨next, -, hrest⟩ := Option.bind_eq_some_iff.1 h
      refine List.forall_mem_cons.2 ⟨?_, ih hrest⟩
      exact Int64.not_lt.1 hsize

/-- No factor of a product that fits overflows on the way. -/
theorem countFrom_of_pos {shape : Shape} (hpos : ∀ size ∈ shape, 0 < size) {count : Nat}
    (hcount : count < 2 ^ 64) :
    countFrom count shape =
      if count * shape.volume < 2 ^ 64 then some (count * shape.volume) else none := by
  induction shape generalizing count with
  | nil => rw [countFrom, volume_nil, Nat.mul_one, if_pos hcount]
  | cons size rest ih =>
    rw [List.forall_mem_cons] at hpos
    have hrest : 0 < volume rest := volume_pos hpos.2
    rw [countFrom, if_neg (not_neg_of_pos hpos.1), volume_cons, ← Nat.mul_assoc, checkedMul_eq]
    split
    · rename_i hsmall
      rw [Option.bind_some, ih hpos.2 hsmall]
    · rename_i hlarge
      have hle : count * size.toNatClampNeg ≤ count * size.toNatClampNeg * volume rest :=
        Nat.le_mul_of_pos_right _ hrest
      rw [Option.bind_none, if_neg (by omega)]

theorem elementCount_of_pos {shape : Shape} (hpos : ∀ size ∈ shape, 0 < size) :
    shape.elementCount = if shape.volume < 2 ^ 64 then some shape.volume else none := by
  have h := @countFrom_of_pos shape hpos 1 (by norm_num)
  simpa only [elementCount, Nat.one_mul] using h

theorem eq_of_elementCount {shape : Shape} {n : Nat} (h : shape.elementCount = some n) :
    n = shape.volume := by
  rw [eq_of_countFrom h, Nat.one_mul]

theorem pos_of_isDescription {shape : Shape} (h : shape.isDescription = true)
    (hopen : -1 ∉ shape) : ∀ size ∈ shape, 0 < size := by
  intro size hsize
  have hor : 0 < size ∨ size = -1 := by simpa using List.all_eq_true.1 h size hsize
  exact hor.resolve_right fun heq ↦ hopen (heq ▸ hsize)

/-- The number of elements of a described shape is there if no dimension is open and it fits into
64 bits. -/
theorem elementCount_eq_some_iff {shape : Shape} (h : shape.isDescription = true) {count : Nat} :
    shape.elementCount = some count ↔
      -1 ∉ shape ∧ shape.volume < 2 ^ 64 ∧ count = shape.volume := by
  constructor
  · intro hcount
    have hopen : -1 ∉ shape := fun hmem ↦
      absurd (nonneg_of_countFrom hcount (-1) hmem) (by decide)
    rw [elementCount_of_pos (pos_of_isDescription h hopen)] at hcount
    split at hcount
    · rename_i hfits
      exact ⟨hopen, hfits, (Option.some.inj hcount).symm⟩
    · cases hcount
  · rintro ⟨hopen, hfits, rfl⟩
    rw [elementCount_of_pos (pos_of_isDescription h hopen), if_pos hfits]

end TensorInference.Model.Shape

namespace TensorInference.Inference

open Model

/-- The exact number of bytes of a batch of tensors. -/
def exactBytes (batch : UInt32) (type : ElementType) (shape : Shape) : Nat :=
  batch.toNat * shape.volume * type.width

theorem exactBytes_eq (batch : UInt32) (type : ElementType) (shape : Shape) :
    exactBytes batch type shape = shape.volume * type.width * batch.toNat := by
  rw [exactBytes]
  ring

theorem Response.expectedBytes_eq {batch : UInt32} {type : ElementType} {shape : Shape} :
    expectedBytes batch type shape =
      shape.elementCount.map fun count ↦ count * type.width * batch.toNat % 2 ^ 64 := rfl

/-- The bytes that a response expects are the exact ones as a word has them. -/
theorem Response.eq_of_expectedBytes {batch : UInt32} {type : ElementType} {shape : Shape} {n : Nat}
    (h : expectedBytes batch type shape = some n) : n = exactBytes batch type shape % 2 ^ 64 := by
  rw [expectedBytes_eq] at h
  obtain ⟨count, hcount, rfl⟩ := Option.map_eq_some_iff.1 h
  rw [Shape.eq_of_elementCount hcount, exactBytes_eq]

/-- Of 2 ^ 64 bytes nothing is left. -/
example : Response.expectedBytes 1073741824 .fp64 [2147483648] = some 0 := by decide

theorem batchBytes_eq_some {batch : UInt32} {type : ElementType} {shape : Shape} {n : Nat}
    (h : batchBytes batch type shape = some n) :
    n = exactBytes batch type shape ∧ n < 2 ^ 64 ∧
      Response.expectedBytes batch type shape = some n := by
  obtain ⟨count, hcount, h⟩ := Option.bind_eq_some_iff.1 h
  obtain ⟨item, hitem, h⟩ := Option.bind_eq_some_iff.1 h
  obtain ⟨-, rfl⟩ := Shape.checkedMul_eq_some.1 hitem
  obtain ⟨hlt, rfl⟩ := Shape.checkedMul_eq_some.1 h
  refine ⟨by rw [Shape.eq_of_elementCount hcount, exactBytes_eq], hlt, ?_⟩
  rw [Response.expectedBytes_eq, hcount, Option.map_some, Nat.mod_eq_of_lt hlt]

/-- Bytes of a batch can be counted exactly when their exact number fits into 64 bits. -/
theorem batchBytes_of_pos {batch : UInt32} {type : ElementType} {shape : Shape}
    (hbatch : 0 < batch.toNat) (hpos : ∀ size ∈ shape, 0 < size) :
    batchBytes batch type shape =
      if exactBytes batch type shape < 2 ^ 64 then some (exactBytes batch type shape)
      else none := by
  have hwidth := type.width_pos
  have hcount : shape.volume ≤ shape.volume * type.width := Nat.le_mul_of_pos_right _ hwidth
  have hitem : shape.volume * type.width ≤ shape.volume * type.width * batch.toNat :=
    Nat.le_mul_of_pos_right _ hbatch
  rw [exactBytes_eq]
  by_cases h : shape.volume * type.width * batch.toNat < 2 ^ 64
  · have hvolume : shape.volume < 2 ^ 64 := by omega
    have hproduct : shape.volume * type.width < 2 ^ 64 := by omega
    simp only [batchBytes, Shape.elementCount_of_pos hpos, Shape.checkedMul_eq, if_pos hvolume,
      if_pos hproduct, if_pos h, Option.bind_eq_bind, Option.bind_some]
  · rw [if_neg h, Option.eq_none_iff_forall_ne_some]
    intro n hn
    obtain ⟨rfl, hlt, -⟩ := batchBytes_eq_some hn
    exact h (exactBytes_eq batch type shape ▸ hlt)

end TensorInference.Inference
