import TensorInference.Proofs.Inference.Given
import TensorInference.Proofs.Tensor.Elements

/-!
# Items of a batch

The bytes of every input of a batch are those of its items one after the other, so a batch can be
taken apart into requests for one item each: the bytes are cut into equal pieces, and everything
else is kept except for the byte sizes, which are left to normalization. The items of an acceptable
request are acceptable, they have its shapes, and the classes of a tensor are those of the tensors
of the items, one entry each.
-/

namespace TensorInference.Inference

open Model Wire

/-- The data of one item: of the bytes of each input, cut into equal pieces, the piece at the
position of the item. -/
def InputData.item (data : InputData) (batch k : Nat) : InputData :=
  data.map fun pieces ↦ [Tensor.block (pieces.flatten.length / batch) pieces.flatten k]

/-- The request for one item of a batch. -/
def Submission.item (submission : Submission) (k : Nat) : Submission where
  model := submission.model
  selector := submission.selector
  header := { submission.header with
    batch := 1
    inputs := submission.header.inputs.map fun given ↦ { given with byteSize := 0 } }
  data := submission.data.item submission.header.batch.toNat k

/-- The requests for the items of a batch, in their order. -/
def Submission.items (submission : Submission) : List Submission :=
  (List.range submission.header.batch.toNat).map submission.item

variable {config : Config} {submission : Submission} {described : Input} {k : Nat}

theorem joined_item {data : InputData} {batch : Nat} {name : String} :
    (data.item batch k).joined name =
      Tensor.block ((data.joined name).length / batch) (data.joined name) k := by
  rw [InputData.joined, InputData.joined, InputData.item, OrderedMap.get?_map]
  cases data.get? name with
  | none => simp [Tensor.block]
  | some pieces => simp

theorem shapeOf_item : shapeOf (submission.item k).header described =
    shapeOf submission.header described := by
  have hfind : (submission.item k).header.findInput described.name =
      (submission.header.findInput described.name).map fun given ↦
        { given with byteSize := 0 } :=
    List.find?_map
  rw [shapeOf, shapeOf, hfind, Option.map_map]
  rfl

/-- An item gives its block of every tensor. -/
theorem tensor_item (hbatch : 0 < submission.header.batch.toNat)
    (hfills : Fills submission.header.batch described (submission.tensor described)) :
    (submission.item k).tensor described = { submission.tensor described with
      data := Tensor.block ((submission.tensor described).shape.volume * described.type.width)
        (submission.tensor described).data k } := by
  have hlength : (submission.tensor described).data.length / submission.header.batch.toNat =
      (submission.tensor described).shape.volume * described.type.width := by
    rw [hfills.length, exactBytes, Nat.mul_assoc, Nat.mul_div_cancel_left _ hbatch]
  rw [← hlength]
  simp only [Submission.tensor, shapeOf_item]
  rw [Submission.item, joined_item]

theorem Provides.item {batch : UInt32} {data : InputData} {given : RequestInput}
    (h : Provides batch data described given) (hk : k < batch.toNat) :
    Provides 1 (data.item batch.toNat k) described { given with byteSize := 0 } := by
  have hbatch : 0 < batch.toNat := Nat.zero_lt_of_lt hk
  have hone : exactBytes 1 described.type (settledShape described given) =
      (settledShape described given).volume * described.type.width := by
    rw [exactBytes, UInt32.toNat_one, Nat.one_mul]
  have hall : exactBytes batch described.type (settledShape described given) = batch.toNat *
      ((settledShape described given).volume * described.type.width) := by
    rw [exactBytes, Nat.mul_assoc]
  obtain ⟨pieces, hpieces, hsum⟩ := h.data
  refine ⟨h.shape, ?_, .inl rfl, ?_⟩
  · change exactBytes 1 described.type (settledShape described given) < 2 ^ 64
    rw [hone]
    have hbounded := h.bounded
    rw [hall] at hbounded
    exact Nat.lt_of_le_of_lt (Nat.le_mul_of_pos_left _ hbatch) hbounded
  · have hlength : pieces.flatten.length = batch.toNat *
        ((settledShape described given).volume * described.type.width) := by
      rw [List.length_flatten, hsum, hall]
    refine ⟨_, by rw [InputData.item, OrderedMap.get?_map, hpieces]; rfl, ?_⟩
    change _ = exactBytes 1 described.type (settledShape described given)
    rw [hone, List.map_singleton, List.sum_singleton, hlength, Nat.mul_div_cancel_left _ hbatch,
      Tensor.length_block hlength hk]

/-- The items of an acceptable request are acceptable. -/
theorem Acceptable.item (h : Acceptable config submission.header submission.data)
    (hk : k < submission.header.batch.toNat) :
    Acceptable config (submission.item k).header (submission.item k).data := by
  have hnames : (submission.item k).header.inputs.map (·.name) =
      submission.header.inputs.map (·.name) := List.map_map
  refine ⟨Nat.le_refl _, Nat.le_max_left _ _, hnames ▸ h.inputs, ?_, ?_, h.outputs_distinct,
    h.outputs_known, h.classes⟩
  · intro given hgiven described hdescribed hname
    obtain ⟨whole, hwhole, rfl⟩ := List.mem_map.1 hgiven
    exact (h.provides whole hwhole described hdescribed hname).item hk
  · intro name hname
    rw [hnames]
    have hkeys : (submission.item k).data.keys = submission.data.keys := OrderedMap.keys_map
    exact h.keys name (hkeys ▸ hname)

namespace Response

variable {labels : Labels} {want : WantedOutput} {count : UInt32} {volume : Nat}

/-- The best classes of the tensor of one item. -/
def itemClasses (labels : Labels) (want : WantedOutput) (count : UInt32) (data : Bytes) :
    List ClassScore :=
  bestClasses count.toNat (labels.label want.name)
    ((Tensor.read want.type.width data).map (Tensor.score want.type))

/-- A batch is classified item by item. -/
theorem classify_flatten {items : List Bytes} (hvolume : 0 < volume) (hitems : items ≠ [])
    (hlength : ∀ data ∈ items, data.length = volume * want.type.width) :
    classify labels items.length want count items.flatten =
      items.map (itemClasses labels want count) := by
  have hwidth := want.type.width_pos
  have hbatch : 0 < items.length := List.length_pos_iff.2 hitems
  have hbytes : items.flatten.length = items.length * (volume * want.type.width) :=
    Tensor.length_flatten hlength
  have helements : (Tensor.read want.type.width items.flatten).length = items.length * volume := by
    rw [Tensor.length_read, hbytes, ← Nat.mul_assoc, Nat.mul_div_cancel _ hwidth]
  have hfew : items.length ≤ items.length * volume := Nat.le_mul_of_pos_right _ hvolume
  rw [classify, batchItems, List.length_map, helements, Nat.mul_div_cancel_left _ hbatch,
    Nat.max_eq_right hvolume, Nat.min_eq_left hfew, Tensor.groups_map,
    Tensor.groups_read hwidth hbytes, Tensor.groups_flatten hlength, List.map_map, List.map_map]
  rfl

theorem classify_one {data : Bytes} (hvolume : 0 < volume)
    (hlength : data.length = volume * want.type.width) :
    classify labels 1 want count data = [itemClasses labels want count data] := by
  have hsingle := @classify_flatten labels want count volume [data] hvolume
    (List.cons_ne_nil _ _) (List.forall_mem_singleton.2 hlength)
  rwa [List.flatten_singleton] at hsingle

end Response

end TensorInference.Inference
