import TensorInference.Proofs.Inference.Ranking

/-!
# Lists of classes and items of a batch

Where the best classes of an output were asked for, a completed response has no tensor for it, and
lists the classes of one item after the other. How many items there are is found from the number of
elements, so a shape with a dimension of no size leaves none: then nothing is listed at all, however
large the batch is. For every other shape there is one list for every item of the batch, unless its
bytes do not fit into 64 bits and too few elements are left of it.
Main statement: `itemized_of_finalize`.
-/

namespace TensorInference

open Model Wire

namespace Inference.Response

variable {config : Config} {header : RequestHeader} {labels : Labels} {fresh final : Response}

/-- How the entry of an output of which the classes were asked for is made up: there is no tensor
in it, and one list for every item of the batch as long as there are elements, so no list if a
dimension has no size. There is one for every item of a shape without such a dimension if its bytes
fit into 64 bits. -/
def Itemized (config : Config) (header : RequestHeader) (final : Response)
    (asked : String × Option UInt32) (entry : ResponseOutput) : Prop :=
  asked.2 ≠ none → entry.name = asked.1 ∧ entry.raw = none ∧ ∃ described tensor,
    config.findOutput asked.1 = some described ∧ final.outputs.get? asked.1 = some tensor ∧
      tensor.data.length = exactBytes header.batch described.type tensor.shape % 2 ^ 64 ∧
      entry.classes.length = min header.batch.toNat (tensor.elementCount described.type) ∧
      (exactBytes header.batch described.type tensor.shape < 2 ^ 64 → 0 ∉ tensor.shape →
        entry.classes.length = header.batch.toNat) ∧
      (0 ∈ tensor.shape → entry.classes = [])

/-- Whatever was stored and whatever else happened before, a completed response has one list of
classes for every item of the batch, unless fewer elements than items are stored. -/
theorem itemized_of_finalize {version : UInt64}
    (hcreate : create header config version labels = .ok fresh) (operations : List Operation)
    (hfinal : (fresh.performAll operations).finalize = .ok final) :
    List.Forall₂ (Itemized config header final) (askedOutputs config header)
      final.header.outputs := by
  refine (lists_of_finalize hcreate operations hfinal).imp fun asked entry hlists hasked ↦ ?_
  obtain ⟨count, hcount⟩ := Option.ne_none_iff_exists'.1 hasked
  obtain ⟨described, tensor, h⟩ := hlists count hcount
  have hvolume := Shape.volume_eq_zero_iff h.shape
  refine ⟨h.named, h.raw, described, tensor, h.found, h.stored, h.length, h.length_classes,
    fun hfits hsome ↦ h.length_classes_of_fits hfits (mt hvolume.1 hsome), fun hnone ↦ ?_⟩
  have hfits : exactBytes header.batch described.type tensor.shape < 2 ^ 64 := by
    rw [exactBytes, hvolume.2 hnone, Nat.mul_zero, Nat.zero_mul]
    decide
  apply List.length_eq_zero_iff.1
  rw [h.length_classes, OutputTensor.elementCount_eq h.length hfits, hvolume.2 hnone, Nat.mul_zero,
    Nat.min_zero]

/-- A one and a zero, of which each is all that an item has. -/
def oneEach : OutputTensor where
  shape := [1]
  data := Tensor.write 4 [0x3f800000, 0]

/-- The only class of both items. -/
def oneListed : List (List ClassScore) :=
  [[⟨0, 0x3f800000, ""⟩], [⟨0, 0, ""⟩]]

theorem itemized_of_finalize_oneEach :
    create bestTwo marking 1 .empty = .ok (listing .empty .empty []) ∧
      ((listing .empty .empty []).performAll
          [.store "scores" oneEach.shape oneEach.data]).finalize =
        .ok (listing .empty (OrderedMap.empty.insert "scores" oneEach)
          [⟨"scores", none, oneListed⟩]) ∧
      List.Forall₂ (Itemized marking bestTwo
          (listing .empty (OrderedMap.empty.insert "scores" oneEach) [⟨"scores", none, oneListed⟩]))
        [("scores", some 2)] [⟨"scores", none, oneListed⟩] := by
  have hcreate : create bestTwo marking 1 .empty = .ok (listing .empty .empty []) := rfl
  have hlisted : oneListed = [bestClasses 2 (Labels.empty.label "scores") [0x3ff0000000000000],
      bestClasses 2 (Labels.empty.label "scores") [0]] := by
    rw [bestClasses_of_ranked (by decide), bestClasses_of_ranked (by decide)]
    rfl
  have hfinal : ((listing .empty .empty []).performAll
      [.store "scores" oneEach.shape oneEach.data]).finalize =
        .ok (listing .empty (OrderedMap.empty.insert "scores" oneEach)
          [⟨"scores", none, oneListed⟩]) := by
    rw [hlisted]
    rfl
  exact ⟨hcreate, hfinal, itemized_of_finalize hcreate _ hfinal⟩

/-- The shape whose only dimension has no size is accepted without any bytes, and the response that
is completed with it lists no class for either item. -/
theorem unlisted_of_noElements :
    create bestTwo marking 1 .empty = .ok (listing .empty .empty []) ∧
      (listing .empty .empty []).store "scores" [0] [] =
        .ok (listing .empty (OrderedMap.empty.insert "scores" ⟨[0], []⟩) []) ∧
      (listing .empty (OrderedMap.empty.insert "scores" ⟨[0], []⟩) []).finalize =
        .ok (listing .empty (OrderedMap.empty.insert "scores" ⟨[0], []⟩) [⟨"scores", none, []⟩]) ∧
      ¬ ∀ entry ∈ [(⟨"scores", none, []⟩ : ResponseOutput)],
        entry.classes.length = bestTwo.batch.toNat := by
  refine ⟨rfl, rfl, rfl, fun hall ↦ ?_⟩
  exact absurd (List.forall_mem_singleton.1 hall) (by decide)

end Inference.Response

end TensorInference
