import TensorInference.Proofs.Binary.Nearest
import TensorInference.Proofs.Inference.Ranking

/-!
# The ranking of integers

Where the elements of an output are integers, the classes of an item are ranked by the
double-precision numbers nearest to them. So a greater integer is listed after a lower one only if
both are rounded to the same number, and the classes are ranked by the integers themselves if none
of them exceeds 2 ^ 53, as in all types of up to 32 bits. Integers of 64 bits can be further apart
from zero than that, and then the first class of an item need not be the one with the greatest
integer.
Main statement: `ranksIntegers_of_finalize`.
-/

namespace TensorInference

open Model Wire

namespace Tensor

variable {type : ElementType} {element : Nat}

theorem score_of_isInteger (h : isInteger type) :
    score type element = Binary.double.ofInt (integerValue type element) := by
  unfold score
  split
  · rfl
  · rfl
  · rename_i format hformat
    exact absurd hformat (h format)

/-- An integer of up to 32 bits has no more than 53 significant bits. -/
theorem natAbs_integerValue_le (hwidth : type.width ≤ 4) (h : element < modulus type) :
    (integerValue type element).natAbs ≤ 2 ^ 53 := by
  have hmodulus : modulus type ≤ 2 ^ 32 := by
    rw [modulus, Nat.one_shiftLeft]
    exact Nat.pow_le_pow_right (by decide) (by omega)
  unfold integerValue
  split
  · split <;> omega
  · omega

end Tensor

namespace Inference

/-- The integer at a place of an item of a tensor, if items have so many elements. -/
def OutputTensor.integer (tensor : OutputTensor) (type : ElementType) (size item place : Nat) :
    Int :=
  Tensor.integerValue type (Tensor.element type.width tensor.data (item * size + place))

namespace Response

/-- Whether one place ranks before another by a key: its key is greater, or the keys are the same
and it is the lower place. -/
def RanksBefore (key : Nat → Int) (i j : Nat) : Prop :=
  key j < key i ∨ (key i = key j ∧ i < j)

/-- What it is for places to be the first ones of so many places in the ranking by a key. -/
structure FirstPlaces (count size : Nat) (key : Nat → Int) (places : List Nat) : Prop where
  length : places.length = min count size
  inside : ∀ place ∈ places, place < size
  ranked : places.Pairwise (RanksBefore key)
  /-- What is left out ranks after everything that is listed. -/
  leftOut : ∀ other < size, other ∉ places → ∀ place ∈ places, RanksBefore key place other
  /-- The first place is the lowest one with the greatest key. -/
  first : ∀ place, places.head? = some place → ∀ other < size,
    key other ≤ key place ∧ (key other = key place → place ≤ other)

variable {count size : Nat} {key value : Nat → Int} {order places : List Nat}

theorem firstPlaces_take (hperm : order.Perm (List.range size))
    (hranked : order.Pairwise (RanksBefore key)) :
    FirstPlaces count size key (order.take count) where
  length := by rw [List.length_take, hperm.length_eq, List.length_range]
  inside place hplace := List.mem_range.1 (hperm.mem_iff.1 (List.mem_of_mem_take hplace))
  ranked := hranked.sublist (List.take_sublist ..)
  leftOut other hother hout place hplace := by
    have hmem := hperm.mem_iff.2 (List.mem_range.2 hother)
    rw [← List.take_append_drop count order] at hranked hmem
    have hdropped := (List.mem_append.1 hmem).resolve_left hout
    exact (List.pairwise_append.1 hranked).2.2 place hplace other hdropped
  first place hplace other hother := by
    obtain ⟨rest, rfl⟩ : ∃ rest, order = place :: rest := by
      cases order with
      | nil => simp at hplace
      | cons head rest =>
        cases count with
        | zero => simp at hplace
        | succ count => exact ⟨rest, by simpa using hplace⟩
    have hmem := hperm.mem_iff.2 (List.mem_range.2 hother)
    rcases List.mem_cons.1 hmem with rfl | hrest
    · exact ⟨Int.le_refl _, fun _ ↦ Nat.le_refl _⟩
    · rcases (List.pairwise_cons.1 hranked).1 other hrest with hlt | ⟨hsame, hlt⟩
      · exact ⟨hlt.le, fun h ↦ absurd h hlt.ne⟩
      · exact ⟨hsame.ge, fun _ ↦ hlt.le⟩

/-- A ranking depends on the keys of its places alone. -/
theorem FirstPlaces.congr (h : FirstPlaces count size key places)
    (hkey : ∀ place < size, key place = value place) : FirstPlaces count size value places where
  length := h.length
  inside := h.inside
  ranked := h.ranked.imp_of_mem fun hi hj hbefore ↦ by
    rwa [RanksBefore, ← hkey _ (h.inside _ hi), ← hkey _ (h.inside _ hj)]
  leftOut other hother hout place hplace := by
    rw [RanksBefore, ← hkey _ (h.inside _ hplace), ← hkey _ hother]
    exact h.leftOut other hother hout place hplace
  first place hplace other hother := by
    have hinside := h.inside place (List.mem_of_head? hplace)
    rw [← hkey place hinside, ← hkey other hother]
    exact h.first place hplace other hother

/-- Integers rank each other as the numbers do that they are rounded to. -/
theorem outranks_ofInt_iff {i j : Nat} (hi : (value i).natAbs < 2 ^ 64)
    (hj : (value j).natAbs < 2 ^ 64) :
    Outranks (fun k ↦ Binary.double.ofInt (value k)) i j ↔
      RanksBefore (fun k ↦ Binary.nearestInt (value k)) i j := by
  rw [Outranks, RanksBefore, Binary.Format.totallyPrecedes_ofInt_iff hj hi,
    Binary.Format.ofInt_eq_iff hi hj]

/-- How the classes of an item list its integers: by the places that rank first. -/
structure ListsIntegers (count size : Nat) (value : Nat → Int) (classes : List ClassScore)
    (places : List Nat) : Prop where
  listed : classes.map (·.index) = places.map UInt32.ofNat
  /-- The ranking is that of the rounded integers, -/
  rounded : FirstPlaces count size (fun k ↦ Binary.nearestInt (value k)) places
  /-- so a greater one comes later only if rounding makes it the same, -/
  merged : places.Pairwise fun i j ↦ value j < value i ∨
    (Binary.nearestInt (value i) = Binary.nearestInt (value j) ∧ i < j)
  /-- and it is that of the integers if none of them is rounded. -/
  exact : (∀ k < size, (value k).natAbs ≤ 2 ^ 53) → FirstPlaces count size value places

theorem exists_listsIntegers {label : Nat → String}
    (hvalue : ∀ k, (value k).natAbs < 2 ^ 64) : ∃ places,
      ListsIntegers count size value
        (bestClasses count label ((List.range size).map fun k ↦ Binary.double.ofInt (value k)))
        places := by
  obtain ⟨order, hperm, hranked, heq⟩ := @exists_bestClasses_eq
    (fun k ↦ Binary.double.ofInt (value k)) label count size
    fun k _ ↦ Binary.Format.ofInt_lt_patterns (value k)
  have hbefore := hranked.imp (outranks_ofInt_iff (hvalue _) (hvalue _)).1
  have hfirst : FirstPlaces count size (fun k ↦ Binary.nearestInt (value k)) (order.take count) :=
    firstPlaces_take hperm hbefore
  refine ⟨order.take count, ?_, hfirst, hfirst.ranked.imp ?_, fun hsmall ↦ hfirst.congr ?_⟩
  · rw [heq, List.map_map]
    rfl
  · rintro i j (hlt | hsame)
    · left
      by_contra hle
      exact absurd (Binary.nearestInt_mono (Int.not_lt.1 hle)) (Int.not_le.2 hlt)
    · exact .inr hsame
  · exact fun k hk ↦ Binary.nearestInt_eq_self (hsmall k hk)

variable {config : Config} {header : RequestHeader} {labels : Labels} {fresh final : Response}

/-- How a completed response lists the classes of an output whose elements are integers: those of
every item in the ranking of its rounded integers, which is the ranking of the integers themselves
in types of up to 32 bits. Items have the size of the shape if its bytes fit into 64 bits. -/
def RanksIntegers (config : Config) (header : RequestHeader) (final : Response)
    (asked : String × Option UInt32) (entry : ResponseOutput) : Prop :=
  ∀ count, asked.2 = some count → ∃ described tensor size,
    config.findOutput asked.1 = some described ∧ final.outputs.get? asked.1 = some tensor ∧
      tensor.data.length = exactBytes header.batch described.type tensor.shape % 2 ^ 64 ∧
      entry.name = asked.1 ∧
      size = tensor.itemSize described.type header.batch.toNat ∧
      entry.classes.length = min header.batch.toNat (tensor.elementCount described.type) ∧
      (exactBytes header.batch described.type tensor.shape < 2 ^ 64 → tensor.shape.volume ≠ 0 →
        entry.classes.length = header.batch.toNat ∧
        (header.batch.toNat ≠ 0 → size = tensor.shape.volume)) ∧
      (Tensor.isInteger described.type → ∀ i classes, entry.classes[i]? = some classes →
        ∃ places, ListsIntegers count.toNat size (tensor.integer described.type size i) classes
            places ∧
          (described.type.width ≤ 4 →
            FirstPlaces count.toNat size (tensor.integer described.type size i) places))

/-- The classes of every item of integers are listed in the order of the double-precision numbers
nearest to them, and of those with the same number the lower place comes first. -/
theorem ranksIntegers_of_finalize {version : UInt64}
    (hcreate : create header config version labels = .ok fresh) (operations : List Operation)
    (hfinal : (fresh.performAll operations).finalize = .ok final) :
    List.Forall₂ (RanksIntegers config header final) (askedOutputs config header)
      final.header.outputs := by
  refine (lists_of_finalize hcreate operations hfinal).imp fun asked entry hlists count hcount ↦ ?_
  obtain ⟨described, tensor, h⟩ := hlists count hcount
  refine ⟨described, tensor, _, h.found, h.stored, h.length, h.named, rfl, h.length_classes,
    fun hfits hvolume ↦ ⟨h.length_classes_of_fits hfits hvolume, fun hbatch ↦ ?_⟩,
    fun hinteger i classes hclasses ↦ ?_⟩
  · rw [OutputTensor.itemSize,
      OutputTensor.perItem_eq_volume (Nat.pos_of_ne_zero hbatch) h.length hfits]
    exact Nat.max_eq_right (Nat.pos_of_ne_zero hvolume)
  · rw [h.classes, classesOf, List.getElem?_map] at hclasses
    obtain ⟨_, hitem, rfl⟩ := Option.map_eq_some_iff.1 hclasses
    obtain ⟨_, rfl⟩ := List.getElem?_eq_some_iff.1 hitem
    rw [List.getElem_range]
    generalize tensor.itemSize described.type header.batch.toNat = size
    have hvalue (k : Nat) : (tensor.integer described.type size i k).natAbs < 2 ^ 64 :=
      Tensor.natAbs_integerValue_lt (Tensor.element_lt_modulus _ _)
    have hscore : tensor.score described.type size i =
        fun k ↦ Binary.double.ofInt (tensor.integer described.type size i k) :=
      funext fun _ ↦ Tensor.score_of_isInteger hinteger
    obtain ⟨places, hplaces⟩ := @exists_listsIntegers count.toNat size
      (tensor.integer described.type size i) (labels.label asked.1) hvalue
    rw [hscore]
    refine ⟨places, hplaces, fun hwidth ↦ hplaces.exact fun k _ ↦ ?_⟩
    exact Tensor.natAbs_integerValue_le hwidth (Tensor.element_lt_modulus _ _)

/-! ## Two integers that are rounded to the same number -/

/-- A model with two integers of 64 bits as its only output. -/
def counting : Config where
  name := "counting"
  platform := "custom"
  maxBatch := 0
  inputs := []
  outputs := [{ name := "scores", type := .uint64, shape := [2], labelFile := none }]
  policy := .all
  instances := 1

/-- The response to a request for the best class, with the outputs that are there and their
descriptions. -/
def counted (outputs : OrderedMap String OutputTensor) (described : List ResponseOutput) :
    Response where
  header := { id := 0, model := "counting", version := 1, batch := 1, outputs := described }
  wanted := [{ name := "scores", type := .uint64, classes := some 1 }]
  outputs
  labels := .empty

/-- The last integer that is a double-precision number with all integers below it, and the next
one, which is rounded to it. -/
def beyond : OutputTensor where
  shape := [2]
  data := Tensor.write 8 [2 ^ 53, 2 ^ 53 + 1]

/-- The lower one of the two is listed. -/
def firstCounted : ResponseOutput :=
  ⟨"scores", none, [[⟨0, 0x5a000000, ""⟩]]⟩

theorem finalize_beyond :
    ((counted .empty []).performAll [.store "scores" beyond.shape beyond.data]).finalize =
      .ok (counted (OrderedMap.empty.insert "scores" beyond) [firstCounted]) := by
  have hlisted : [(⟨0, 0x5a000000, ""⟩ : ClassScore)] =
      bestClasses 1 (Labels.empty.label "scores") [0x4340000000000000, 0x4340000000000000] := by
    rw [bestClasses_of_ranked (by decide)]
    rfl
  rw [firstCounted, hlisted]
  rfl

theorem ranksIntegers_of_finalize_beyond :
    create best counting 1 .empty = .ok (counted .empty []) ∧
      ((counted .empty []).performAll [.store "scores" beyond.shape beyond.data]).finalize =
        .ok (counted (OrderedMap.empty.insert "scores" beyond) [firstCounted]) ∧
      List.Forall₂ (RanksIntegers counting best
          (counted (OrderedMap.empty.insert "scores" beyond) [firstCounted]))
        [("scores", some 1)] [firstCounted] := by
  have hcreate : create best counting 1 .empty = .ok (counted .empty []) := rfl
  exact ⟨hcreate, finalize_beyond, ranksIntegers_of_finalize hcreate _ finalize_beyond⟩

/-- The first class of the item is not the one with the greatest integer. -/
theorem misranked_beyond :
    create best counting 1 .empty = .ok (counted .empty []) ∧
      ((counted .empty []).performAll [.store "scores" beyond.shape beyond.data]).finalize =
        .ok (counted (OrderedMap.empty.insert "scores" beyond) [firstCounted]) ∧
      beyond.integer .uint64 2 0 0 = 2 ^ 53 ∧ beyond.integer .uint64 2 0 1 = 2 ^ 53 + 1 ∧
      ¬ ∃ classes places, firstCounted.classes[0]? = some classes ∧
        classes.map (·.index) = places.map UInt32.ofNat ∧
        FirstPlaces 1 2 (beyond.integer .uint64 2 0) places := by
  have hlower : beyond.integer .uint64 2 0 0 = 2 ^ 53 := by decide
  have hgreater : beyond.integer .uint64 2 0 1 = 2 ^ 53 + 1 := by decide
  refine ⟨rfl, finalize_beyond, hlower, hgreater, ?_⟩
  rintro ⟨classes, places, hclasses, hlisted, h⟩
  obtain rfl : [⟨0, 0x5a000000, ""⟩] = classes := Option.some.inj hclasses
  obtain ⟨place, rfl⟩ := List.length_eq_one_iff.1 h.length
  have hinside := h.inside place (List.mem_singleton_self place)
  have hfirst := (h.first place rfl 1 (by decide)).1
  rw [hgreater] at hfirst
  have hplace : UInt32.ofNat place = 0 := (List.singleton_inj.1 hlisted).symm
  match place with
  | 0 =>
    rw [hlower] at hfirst
    exact absurd hfirst (by decide)
  | 1 => exact absurd hplace (by decide)

end Response

end Inference

end TensorInference
