import Mathlib.Data.List.Induction
import TensorInference.Interface.Argument
import TensorInference.Inference.Submission
import TensorInference.Proofs.Inference.Refusal
import TensorInference.Proofs.Inference.Acceptance

/-!
# Data in pieces

Callers give the data of the inputs piece by piece, in any order and under any names; a piece may be
empty, and an empty one needs no place. What a request is assembled from can be read off the calls:
the pieces that were given under the name of an input, one after the other. An input that was given
an empty piece was given data, and one that was given nothing was not.
Main statement: `assembles_of_calls`.
-/

namespace TensorInference

open Model Wire Inference Interface

namespace Inference.InputData

theorem ofPieces_append_singleton (pieces : List (String × Bytes)) (piece : String × Bytes) :
    ofPieces (pieces ++ [piece]) = (ofPieces pieces).append piece.1 piece.2 :=
  List.foldl_append

theorem get?_append (data : InputData) (input name : String) (piece : Bytes) :
    (data.append input piece).get? name =
      if name = input then some ((data.get? input).getD [] ++ [piece]) else data.get? name :=
  data.get?_upsert input name [] _

/-- Under a name are the pieces that were given under it, in their order. -/
theorem get?_ofPieces (pieces : List (String × Bytes)) (name : String) :
    (ofPieces pieces).get? name =
      if name ∈ pieces.map (·.1) then some ((pieces.filter (·.1 = name)).map (·.2))
      else none := by
  induction pieces using List.reverseRecOn with
  | nil => rfl
  | append_singleton pieces piece ih =>
    rw [ofPieces_append_singleton, get?_append]
    by_cases hname : name = piece.1
    · subst hname
      have hbefore : ((ofPieces pieces).get? piece.1).getD [] =
          (pieces.filter (·.1 = piece.1)).map (·.2) := by
        rw [ih]
        split
        · rfl
        · rename_i hnone
          have hempty : pieces.filter (·.1 = piece.1) = [] := by
            rw [List.filter_eq_nil_iff]
            intro other hother hsame
            exact hnone (List.mem_map.2 ⟨other, hother, of_decide_eq_true hsame⟩)
          rw [hempty]
          rfl
      rw [if_pos rfl, hbefore]
      simp
    · have hother : piece.1 ≠ name := fun h ↦ hname h.symm
      have hfilter : (pieces ++ [piece]).filter (·.1 = name) = pieces.filter (·.1 = name) := by
        simp [hother]
      have hmem : name ∈ (pieces ++ [piece]).map (·.1) ↔ name ∈ pieces.map (·.1) := by
        simp [hname]
      rw [if_neg hname, ih, hfilter, if_congr hmem rfl rfl]

theorem mem_keys_ofPieces {pieces : List (String × Bytes)} {name : String} :
    name ∈ (ofPieces pieces).keys ↔ name ∈ pieces.map (·.1) := by
  rw [OrderedMap.mem_keys_iff, get?_ofPieces]
  split
  · simp_all
  · simp_all

end Inference.InputData

namespace Interface

/-- A call that gives data of an input: the name and the data as they are passed. -/
abbrev Gift := String × DataArgument

variable {config : Config} {model : String} {version : UInt64} {header : RequestHeader}

/-- A new submission after calls that give it data. -/
def submissionOf (model : String) (selector : Int64) (header : RequestHeader)
    (gifts : List Gift) : Submission :=
  gifts.foldl (fun submission gift ↦ submission.append gift.1 gift.2.bytes)
    { model, selector, header, data := .empty }

/-- The bytes given under a name, call after call. -/
def givenUnder (gifts : List Gift) (name : String) : Bytes :=
  (gifts.filter (·.1 = name)).flatMap (·.2.bytes)

/-- How many bytes were given under a name. -/
def countUnder (gifts : List Gift) (name : String) : Nat :=
  ((gifts.filter (·.1 = name)).map (·.2.bytes.length)).sum

/-- What every call gives is added to the data, whatever name it gives it under. -/
theorem data_submissionOf {selector : Int64} (gifts : List Gift) :
    (submissionOf model selector header gifts).data =
      .ofPieces (gifts.map fun gift ↦ (gift.1, gift.2.bytes)) := by
  rw [InputData.ofPieces, List.foldl_map, submissionOf]
  exact (List.foldl_hom Submission.data fun _ _ ↦ rfl).symm

theorem get?_data_submissionOf {selector : Int64} (gifts : List Gift) (name : String) :
    (submissionOf model selector header gifts).data.get? name =
      if name ∈ gifts.map (·.1) then some ((gifts.filter (·.1 = name)).map (·.2.bytes))
      else none := by
  rw [data_submissionOf, InputData.get?_ofPieces, List.map_map, List.filter_map, List.map_map]
  rfl

theorem length_givenUnder (gifts : List Gift) (name : String) :
    (givenUnder gifts name).length = countUnder gifts name :=
  List.length_flatMap

/-- The tensor that is made of an input of a header and of what was given under its name. -/
structure MadeOf (config : Config) (gifts : List Gift) (input : RequestInput)
    (tensor : InputTensor) : Prop where
  name : tensor.name = input.name
  type : ∃ described, config.findInput input.name = some described ∧ tensor.type = described.type
  shape : tensor.shape = input.shape
  data : tensor.data = givenUnder gifts input.name

/-- The pieces of an input, if it was given any, are all that was given under its name. -/
theorem get?_data_eq_some_iff {selector : Int64} {gifts : List Gift} {name : String}
    {pieces : List Bytes} :
    (submissionOf model selector header gifts).data.get? name = some pieces ↔
      (∃ gift ∈ gifts, gift.1 = name) ∧
        (gifts.filter (·.1 = name)).map (·.2.bytes) = pieces := by
  rw [get?_data_submissionOf, ← List.mem_map]
  split
  · rename_i hgiven
    rw [Option.some.injEq]
    exact ⟨fun h ↦ ⟨hgiven, h⟩, And.right⟩
  · rename_i hnone
    exact iff_of_false nofun fun h ↦ hnone h.1

theorem flatten_pieces (gifts : List Gift) (name : String) :
    ((gifts.filter (·.1 = name)).map (·.2.bytes)).flatten = givenUnder gifts name :=
  List.flatMap_def.symm

/-- A request is assembled exactly if data were given for the inputs of the header only, and each of
them is an input of the model, was given data, and was given as many bytes as the header says. It
then has the joined data of each input in the order of the header. Otherwise an argument is
invalid. -/
theorem assembles_of_calls (model : String) (version : UInt64) (selector : Int64)
    (header asked : RequestHeader) (config : Config) (gifts : List Gift) :
    let data := (submissionOf model selector asked gifts).data
    ((∃ request, Request.assemble model version header config data = .ok request) ↔
      (∀ gift ∈ gifts, gift.1 ∈ header.inputs.map (·.name)) ∧
        ∀ input ∈ header.inputs, input.name ∈ config.inputs.map (·.name) ∧
          (∃ gift ∈ gifts, gift.1 = input.name) ∧
          countUnder gifts input.name = input.byteSize.toNat) ∧
    (∀ request, Request.assemble model version header config data = .ok request →
      request.model = model ∧ request.version = version ∧ request.header = header ∧
        List.Forall₂ (MadeOf config gifts) header.inputs request.inputs) ∧
    (∀ status, Request.assemble model version header config data = .error status →
      status.code = .invalidArg) := by
  intro data
  have hkeys : (∀ name ∈ data.keys, name ∈ header.inputs.map (·.name)) ↔
      ∀ gift ∈ gifts, gift.1 ∈ header.inputs.map (·.name) := by
    simp only [data, data_submissionOf, InputData.mem_keys_ofPieces, List.map_map,
      List.forall_mem_map]
    rfl
  refine ⟨?_, fun request hrequest ↦ ?_, blames_assemble⟩
  · rw [exists_assemble_iff, hkeys]
    refine and_congr_right fun _ ↦ forall₂_congr fun input _ ↦ ?_
    rw [← Named.isSome_find?_iff, Option.isSome_iff_exists]
    constructor
    · rintro ⟨described, pieces, hfind, hpieces, hlength⟩
      obtain ⟨hgiven, rfl⟩ := get?_data_eq_some_iff.1 hpieces
      rw [flatten_pieces, length_givenUnder] at hlength
      exact ⟨⟨described, hfind⟩, hgiven, hlength⟩
    · rintro ⟨⟨described, hfind⟩, hgiven, hlength⟩
      refine ⟨described, _, hfind, get?_data_eq_some_iff.2 ⟨hgiven, rfl⟩, ?_⟩
      rw [flatten_pieces, length_givenUnder, hlength]
  · obtain ⟨-, hinputs, heq⟩ := Request.assemble_eq_ok_iff.1 hrequest
    refine ⟨by rw [heq], by rw [heq], by rw [heq], hinputs.imp fun input tensor htensor ↦ ?_⟩
    obtain ⟨described, pieces, hfind, hpieces, -, rfl⟩ := Request.assembleInput_eq_ok_iff.1 htensor
    obtain ⟨-, rfl⟩ := get?_data_eq_some_iff.1 hpieces
    exact ⟨rfl, ⟨described, hfind, rfl⟩, rfl, flatten_pieces gifts input.name⟩

/-- A model of a text and a note to it. -/
def annotation : Config where
  name := "annotation"
  platform := "custom"
  maxBatch := 0
  inputs := [{ name := "note", type := .uint8, shape := [-1] },
    { name := "text", type := .uint8, shape := [-1] }]
  outputs := [{ name := "length", type := .uint64, shape := [1], labelFile := none }]
  policy := .all
  instances := 1

/-- A text of three bytes with an empty note. -/
def unnoted : RequestHeader where
  id := 0
  batch := 1
  inputs := [{ name := "text", shape := [3], byteSize := 3 },
    { name := "note", shape := [0], byteSize := 0 }]
  outputs := []

/-- The text in two pieces, and between them the note, which has no place. -/
def noteBetween : List Gift :=
  [("text", ⟨some [1, 2, 0xff], 2⟩), ("note", ⟨none, 0⟩), ("text", ⟨some [3], 1⟩)]

/-- An empty note is not the same as none. -/
theorem assembles_of_calls_annotation :
    (∃ request, Request.assemble "annotation" 1 unnoted annotation
        (submissionOf "annotation" 1 unnoted noteBetween).data = .ok request ∧
      request.inputs.map (·.data) = [[1, 2, 3], []]) ∧
    ∃ status, Request.assemble "annotation" 1 unnoted annotation
        (submissionOf "annotation" 1 unnoted [("text", ⟨some [1, 2, 3], 3⟩)]).data =
      .error status ∧ status.code = .invalidArg := by
  obtain ⟨hwith, hrequest, -⟩ :=
    assembles_of_calls "annotation" 1 1 unnoted unnoted annotation noteBetween
  obtain ⟨hwithout, -, hstatus⟩ :=
    assembles_of_calls "annotation" 1 1 unnoted unnoted annotation [("text", ⟨some [1, 2, 3], 3⟩)]
  refine ⟨?_, ?_⟩
  · obtain ⟨request, hassembled⟩ := hwith.2 (by decide)
    obtain ⟨-, -, -, hinputs⟩ := hrequest request hassembled
    have hdata : request.inputs.map (·.data) =
        unnoted.inputs.map fun input ↦ givenUnder noteBetween input.name :=
      (SideBySide.map_eq_map hinputs fun _ _ hmade ↦ hmade.data.symm).symm
    exact ⟨request, hassembled, hdata⟩
  · cases houtcome : Request.assemble "annotation" 1 unnoted annotation
        (submissionOf "annotation" 1 unnoted [("text", ⟨some [1, 2, 3], 3⟩)]).data with
    | error status => exact ⟨status, rfl, hstatus status houtcome⟩
    | ok request => exact absurd (hwithout.1 ⟨request, houtcome⟩) (by decide)

end Interface

end TensorInference
