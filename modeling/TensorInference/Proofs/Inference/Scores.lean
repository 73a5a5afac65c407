import TensorInference.Proofs.Binary.Rounding
import TensorInference.Proofs.Inference.Operations
import TensorInference.Proofs.Tensor.Elements
import TensorInference.Proofs.Wire.Scores

/-!
# The scores of a response

The classes that a response lists are scored by elements of the stored tensors, rounded to single
precision. Single precision has a number for every integer, for every finite element of half and
single precision, and for those of double precision that lie within its range. The header of a
completed response can be read exactly if all of its scores are numbers; nothing keeps a model
from storing an element that has none.
Main statement: `header_read_iff`.
-/

namespace TensorInference

open Model Wire

namespace Tensor

variable {type : ElementType} {element : Nat}

/-- The score that a listed class has: the element rounded to single precision. -/
def listedScore (type : ElementType) (element : Nat) : UInt32 :=
  UInt32.ofNat (Binary.double.convert Binary.single (score type element))

/-- Whether single precision has a number for an element. -/
def HasScore (type : ElementType) (element : Nat) : Prop :=
  match interpretation type with
  | .natural | .integer => True
  | .real format =>
    if format = Binary.double then
      Binary.double.magnitude element ≤ Binary.Format.singleLimit
    else format.isFinite element

theorem natAbs_integerValue_lt (h : element < modulus type) :
    (integerValue type element).natAbs < 2 ^ 64 := by
  have hmodulus : modulus type ≤ 2 ^ 64 := by
    rw [modulus, Nat.one_shiftLeft]
    refine Nat.pow_le_pow_right (by decide) ?_
    cases type <;> decide
  unfold integerValue
  split
  · split <;> omega
  · omega

theorem isNumber_ofNat {bits : Nat} :
    IsNumber (UInt32.ofNat bits) ↔ Binary.single.isFinite bits := by
  have hsign : Binary.single.signBit ∣ 2 ^ 32 := by decide
  rw [IsNumber, Binary.Format.isFinite, Binary.Format.isFinite, Binary.Format.magnitude,
    Binary.Format.magnitude, UInt32.toNat_ofNat', Nat.mod_mod_of_dvd _ hsign]

/-- An element has a number for its score exactly if single precision has one for it. -/
theorem isNumber_listedScore_iff (h : element < modulus type) :
    IsNumber (listedScore type element) ↔ HasScore type element := by
  rw [listedScore, isNumber_ofNat, Binary.Format.isFinite_convert_single_iff]
  have hinteger := Binary.Format.magnitude_ofInt_le (natAbs_integerValue_lt h)
  have hhalf : Binary.half.Canonical (2 ^ 11 - 1) 5 := ⟨by decide, by decide, by decide⟩
  have hsingle : Binary.single.Canonical (2 ^ 24 - 1) 104 := ⟨by decide, by decide, by decide⟩
  cases type with
  | fp16 =>
    exact Binary.Format.magnitude_convert_le_iff (by decide) hhalf (by decide) (by norm_num)
  | fp32 =>
    exact Binary.Format.magnitude_convert_le_iff (by decide) hsingle (by decide) (by norm_num)
  | fp64 => exact Iff.rfl
  | _ => exact iff_of_true hinteger trivial

end Tensor

namespace Inference.Response

open Json

theorem mem_of_mem_batchItems {batch : Nat} {elements item : List Nat} {x : Nat}
    (hitem : item ∈ batchItems batch elements) (hx : x ∈ item) : x ∈ elements := by
  have hflatten : x ∈ (batchItems batch elements).flatten := List.mem_flatten.2 ⟨item, hitem, hx⟩
  rw [batchItems, Tensor.flatten_groups] at hflatten
  exact List.mem_of_mem_take hflatten

/-- A listed class is scored by one of the elements that were ranked. -/
theorem exists_of_mem_bestClasses {count : Nat} {label : Nat → String} {scores : List Nat}
    {entry : ClassScore} (h : entry ∈ bestClasses count label scores) :
    ∃ score ∈ scores,
      entry.score = UInt32.ofNat (Binary.double.convert Binary.single score) := by
  obtain ⟨ranked, hranked, rfl⟩ := List.mem_map.1 h
  have hmem := List.mem_mergeSort.1 (List.mem_of_mem_take hranked)
  obtain ⟨index, hindex, rfl⟩ := List.mem_mapIdx.1 hmem
  exact ⟨_, List.getElem_mem hindex, rfl⟩

/-- Elements that come in the order of the ranking are listed as they come. -/
theorem bestClasses_of_ranked {count : Nat} {label : Nat → String} {scores : List Nat}
    (h : (scores.mapIdx Ranked.mk).Pairwise (Ranked.precedes · ·)) :
    bestClasses count label scores = ((scores.mapIdx Ranked.mk).take count).map fun element => {
      index := UInt32.ofNat element.index
      score := UInt32.ofNat (Binary.double.convert Binary.single element.score)
      label := label element.index } := by
  rw [bestClasses, List.mergeSort_of_pairwise h]

theorem exists_of_mem_classify {labels : Labels} {batch : Nat} {want : WantedOutput}
    {count : UInt32} {data : Bytes} {entries : List ClassScore} {entry : ClassScore}
    (hentries : entries ∈ classify labels batch want count data) (hentry : entry ∈ entries) :
    ∃ element ∈ Tensor.read want.type.width data,
      entry.score = Tensor.listedScore want.type element := by
  obtain ⟨item, hitem, rfl⟩ := List.mem_map.1 hentries
  obtain ⟨score, hscore, heq⟩ := exists_of_mem_bestClasses hentry
  obtain ⟨element, helement, rfl⟩ := List.mem_map.1 (mem_of_mem_batchItems hitem hscore)
  exact ⟨element, helement, heq⟩

variable {config : Config} {header : RequestHeader} {version : UInt64} {labels : Labels}
  {fresh final : Response} {operations : List Operation}

/-- An element of the tensor that was stored as an output whose classes are asked for. -/
def Classed (config : Config) (header : RequestHeader) (final : Response) (type : ElementType)
    (element : Nat) : Prop :=
  ∃ output ∈ header.outputs, output.classes ≠ none ∧
    ∃ described, config.findOutput output.name = some described ∧ described.type = type ∧
      ∃ tensor, final.outputs.get? output.name = some tensor ∧
        element ∈ Tensor.read type.width tensor.data

/-- Only what the request asks the classes of is wanted with classes. -/
theorem exists_of_wantOutputs {wanted : List WantedOutput} {want : WantedOutput}
    (h : wantOutputs config header = .ok wanted) (hwant : want ∈ wanted)
    (hclasses : want.classes ≠ none) :
    ∃ output ∈ header.outputs, output.classes ≠ none ∧ want.name = output.name ∧
      ∃ described, config.findOutput output.name = some described ∧ described.type = want.type := by
  unfold wantOutputs at h
  split at h
  · obtain rfl := Except.ok.inj h
    obtain ⟨output, -, rfl⟩ := List.mem_map.1 hwant
    exact absurd rfl hclasses
  · obtain ⟨output, houtput, hwanted⟩ :=
      SideBySide.exists_of_mem_right (Outcome.mapM_eq_ok_iff.1 h) hwant
    obtain ⟨described, hfind, -, rfl⟩ := wantOutput_eq_ok_iff.1 hwanted
    exact ⟨output, houtput, hclasses, rfl, described, hfind, rfl⟩

/-- Every score of a completed response is that of an element whose classes were asked for. -/
theorem exists_of_mem_scores (hcreate : create header config version labels = .ok fresh)
    (hfinal : (fresh.performAll operations).finalize = .ok final) {score : UInt32}
    (h : score ∈ final.header.scores) :
    ∃ type element, Classed config header final type element ∧
      score = Tensor.listedScore type element ∧
      (IsNumber score ↔ Tensor.HasScore type element) := by
  have hwanted := ((underWay_of_create hcreate).performAll operations).wanted
  obtain ⟨hentries, hresult⟩ := finalize_eq_ok_iff.1 hfinal
  obtain ⟨described, hdescribed, entries, hmem, entry, hentry, rfl⟩ := ResponseHeader.mem_scores.1 h
  obtain ⟨want, hwant, tensor, htensor, rfl⟩ := SideBySide.exists_of_mem_right hentries hdescribed
  have houtputs : final.outputs.get? want.name = some tensor := by
    rw [hresult]
    exact htensor
  unfold describeTensor at hmem
  split at hmem
  · cases hmem
  · rename_i count hcount
    obtain ⟨output, houtput, hclasses, hname, described, hfind, htype⟩ :=
      exists_of_wantOutputs hwanted hwant (by rw [hcount]; exact Option.some_ne_none _)
    obtain ⟨element, helement, hscore⟩ := exists_of_mem_classify hmem hentry
    refine ⟨want.type, element, ⟨output, houtput, hclasses, described, hfind, htype, tensor,
      hname ▸ houtputs, helement⟩, hscore, ?_⟩
    rw [hscore]
    exact Tensor.isNumber_listedScore_iff (Tensor.lt_modulus_of_mem_read helement)

/-- The header of a completed response is read back exactly if each of its scores is a number. A
score is that of an element whose classes were asked for, and it is a number exactly if single
precision has one for the element. -/
theorem header_read_iff (hcreate : create header config version labels = .ok fresh)
    (operations : List Operation) (hfinal : (fresh.performAll operations).finalize = .ok final)
    (hread : ∀ score ∈ final.header.scores, IsNumber score →
      Codec.single.read (Codec.single.write score) = .ok score) :
    (ResponseHeader.message.read (ResponseHeader.message.write final.header) = .ok final.header ↔
      ∀ score ∈ final.header.scores, IsNumber score) ∧
    ((∃ score ∈ final.header.scores, ¬ IsNumber score) →
      ResponseHeader.message.read (ResponseHeader.message.write final.header) =
        .error (.invalidArg
          "failed to parse InferResponseHeader: invalid type: null, expected f32")) ∧
    (∀ score ∈ final.header.scores, ∃ type element, Classed config header final type element ∧
      score = Tensor.listedScore type element ∧
      (IsNumber score ↔ Tensor.HasScore type element)) ∧
    (∀ name tensor, final.outputs.get? name = some tensor →
      .store name tensor.shape tensor.data ∈ operations) ∧
    ((∀ type element, Classed config header final type element → Tensor.HasScore type element) →
      ResponseHeader.message.read (ResponseHeader.message.write final.header) =
        .ok final.header) := by
  have hreturns : ∀ score ∈ final.header.scores, IsNumber score → Codec.single.Returns score :=
    fun score hscore hnumber =>
      Codec.returns_of_read (Codec.wellFormed_single score) (hread score hscore hnumber)
  have haccepted (h : ∀ score ∈ final.header.scores, IsNumber score) :
      ResponseHeader.message.read (ResponseHeader.message.write final.header) =
        .ok final.header :=
    Message.read_write (ResponseHeader.returns fun score hscore =>
      hreturns score hscore (h score hscore))
  have hrefused (h : ∃ score ∈ final.header.scores, ¬ IsNumber score) :=
    ResponseHeader.read_write_of_null hreturns h
  have horigin : ∀ score ∈ final.header.scores, _ :=
    fun score hscore => exists_of_mem_scores hcreate hfinal hscore
  have hoperations : ∀ name tensor, final.outputs.get? name = some tensor →
      .store name tensor.shape tensor.data ∈ operations := by
    intro name tensor htensor
    rw [(finalize_eq_ok_iff.1 hfinal).2] at htensor
    exact (((underWay_of_create hcreate).performAll operations).stored name tensor htensor).2
  refine ⟨⟨fun hok => ?_, haccepted⟩, hrefused, horigin, hoperations, fun hall => haccepted ?_⟩
  · by_contra hnull
    push Not at hnull
    rw [hrefused hnull] at hok
    cases hok
  · intro score hscore
    obtain ⟨type, element, hclassed, -, hnumber⟩ := horigin score hscore
    exact hnumber.2 (hall type element hclassed)

/-- A model with two elements of single precision as its only output. -/
def ranking : Config where
  name := "ranking"
  platform := "custom"
  maxBatch := 0
  inputs := []
  outputs := [{ name := "scores", type := .fp32, shape := [2], labelFile := none }]
  policy := .all
  instances := 1

/-- A request for the best class of the two. -/
def best : RequestHeader where
  id := 0
  batch := 1
  inputs := []
  outputs := [{ name := "scores", classes := some 1 }]

/-- The tensor of two elements. -/
def pair (first second : Nat) : OutputTensor where
  shape := [2]
  data := Tensor.write 4 [first, second]

/-- The response to the request, with the outputs that are there and their descriptions. -/
def answered (outputs : OrderedMap String OutputTensor) (described : List ResponseOutput) :
    Response where
  header := { id := 0, model := "ranking", version := 3, batch := 1, outputs := described }
  wanted := [{ name := "scores", type := .fp32, classes := some 1 }]
  outputs
  labels := .empty

theorem create_best : create best ranking 3 .empty = .ok (answered .empty []) :=
  rfl

/-- The better one is a half more than one; the element that is no number is ranked below it and
not listed. -/
theorem header_read_iff_pair :
    create best ranking 3 .empty = .ok (answered .empty []) ∧
      ((answered .empty []).performAll
          [.store "scores" [2] (pair 0x3fc00000 0xffc00000).data]).finalize =
        .ok (answered (OrderedMap.empty.insert "scores" (pair 0x3fc00000 0xffc00000))
          [⟨"scores", none, [[⟨0, 0x3fc00000, ""⟩]]⟩]) ∧
      Codec.single.read (Codec.single.write 0x3fc00000) = .ok 0x3fc00000 ∧
      ResponseHeader.message.read (ResponseHeader.message.write
          ⟨0, "ranking", 3, 1, [⟨"scores", none, [[⟨0, 0x3fc00000, ""⟩]]⟩]⟩) =
        .ok ⟨0, "ranking", 3, 1, [⟨"scores", none, [[⟨0, 0x3fc00000, ""⟩]]⟩]⟩ := by
  have hbest : bestClasses 1 (Labels.empty.label "scores")
      [0x3ff8000000000000, 0xfff8000000000000] = [⟨0, 0x3fc00000, ""⟩] := by
    rw [bestClasses_of_ranked (by decide)]
    rfl
  have hfinal : ((answered .empty []).performAll
          [.store "scores" [2] (pair 0x3fc00000 0xffc00000).data]).finalize =
      .ok (answered (OrderedMap.empty.insert "scores" (pair 0x3fc00000 0xffc00000))
        [⟨"scores", none, [[⟨0, 0x3fc00000, ""⟩]]⟩]) := by
    rw [← hbest]
    rfl
  have hread : Codec.single.read (Codec.single.write 0x3fc00000) = .ok 0x3fc00000 := by
    decide +kernel
  refine ⟨create_best, hfinal, hread, (header_read_iff create_best _ hfinal ?_).1.2 ?_⟩
  · exact List.forall_mem_singleton.2 fun _ => hread
  · exact List.forall_mem_singleton.2 (by decide)

/-- An element that is no number is ranked first and listed, and the header cannot be read. -/
theorem unreadable_pair :
    ((answered .empty []).performAll
          [.store "scores" [2] (pair 0x7fc00000 0x3f800000).data]).finalize =
        .ok (answered (OrderedMap.empty.insert "scores" (pair 0x7fc00000 0x3f800000))
          [⟨"scores", none, [[⟨0, 0x7fc00000, ""⟩]]⟩]) ∧
      create best ranking 3 .empty = .ok (answered .empty []) ∧
      ResponseHeader.message.read (ResponseHeader.message.write
          ⟨0, "ranking", 3, 1, [⟨"scores", none, [[⟨0, 0x7fc00000, ""⟩]]⟩]⟩) =
        .error (.invalidArg
          "failed to parse InferResponseHeader: invalid type: null, expected f32") := by
  have hbest : bestClasses 1 (Labels.empty.label "scores")
      [0x7ff8000000000000, 0x3ff0000000000000] = [⟨0, 0x7fc00000, ""⟩] := by
    rw [bestClasses_of_ranked (by decide)]
    rfl
  refine ⟨by rw [← hbest]; rfl, create_best, ResponseHeader.read_write_of_null ?_ ?_⟩
  · exact List.forall_mem_singleton.2 fun h => absurd h (by decide)
  · exact ⟨_, List.mem_singleton_self _, by decide⟩

end Inference.Response

end TensorInference
