import TensorInference.Inference.Submission
import TensorInference.Proofs.Inference.Normalization
import TensorInference.Proofs.OrderedMap

/-!
# Assembled requests

Assembly succeeds exactly when pieces are given for the inputs of the header and for nothing else,
and when the pieces of each input have the announced number of bytes together. For a normal header
the tensors of the request are then the model's inputs, each with the shape that normalization
settled, the joined pieces, and the very number of bytes that its shape asks for.
-/

namespace TensorInference.Inference.Request

open Model Wire

variable {config : Config} {model : String} {version : UInt64} {data : InputData}

theorem assembleInput_eq_ok_iff {input : RequestInput} {tensor : InputTensor} :
    assembleInput model config data input = .ok tensor ↔
      ∃ described pieces, config.findInput input.name = some described ∧
        data.get? input.name = some pieces ∧ pieces.flatten.length = input.byteSize.toNat ∧
        tensor = {
          name := input.name, type := described.type, shape := input.shape,
          data := pieces.flatten } := by
  unfold assembleInput
  dsimp only
  constructor
  · intro h
    split at h
    · simp at h
    · simp at h
    · rename_i described pieces hfind hpieces
      split at h
      · rename_i hlength
        exact ⟨described, pieces, hfind, hpieces, hlength, (Except.ok.inj h).symm⟩
      · simp at h
  · rintro ⟨described, pieces, hfind, hpieces, hlength, rfl⟩
    simp only [hfind, hpieces, hlength, if_true]

theorem assemble_eq_ok_iff {header : RequestHeader} {request : Request} :
    assemble model version header config data = .ok request ↔
      (∀ name ∈ data.keys, name ∈ header.inputs.map (·.name)) ∧
        List.Forall₂ (fun input tensor ↦ assembleInput model config data input = .ok tensor)
          header.inputs request.inputs ∧
        request = { model, version, header, inputs := request.inputs } := by
  have hkeys : (data.keys.find? fun name ↦ (header.findInput name).isNone) = none ↔
      ∀ name ∈ data.keys, name ∈ header.inputs.map (·.name) := by
    simp only [List.find?_eq_none, ← Named.isSome_find?_iff, Option.isNone_iff_eq_none,
      Option.isSome_iff_ne_none]
    rfl
  rw [← hkeys]
  unfold assemble
  split
  · rename_i name hname
    simp [hname]
  · rename_i hnone
    rw [Outcome.bind_eq_ok_iff]
    constructor
    · rintro ⟨inputs, hinputs, h⟩
      obtain rfl := Except.ok.inj h
      exact ⟨hnone, Outcome.mapM_eq_ok_iff.1 hinputs, rfl⟩
    · rintro ⟨-, hinputs, hrequest⟩
      exact ⟨request.inputs, Outcome.mapM_eq_ok_iff.2 hinputs, congrArg Except.ok hrequest.symm⟩

/-- What assembly makes of an input of the model: the settled shape, the joined pieces, and exactly
the bytes of that shape, as many as a response expects of an output of it. -/
structure Assembled (normal : RequestHeader) (data : InputData) (request : Request)
    (described : Input) (given : RequestInput) (pieces : List Bytes) : Prop where
  found : normal.findInput described.name = some given
  provided : data.get? described.name = some pieces
  input : request.input described.name = .ok {
    name := described.name, type := described.type, shape := given.shape, data := pieces.flatten }
  exact : pieces.flatten.length = exactBytes normal.batch described.type given.shape
  expected : Response.expectedBytes normal.batch described.type given.shape =
    some pieces.flatten.length
  length_lt : pieces.flatten.length < 2 ^ 64

/-- Every input of the model is assembled in a request with a normal header. -/
theorem exists_assembled {header normal : RequestHeader} {request : Request}
    (hconfig : config.WellFormed) (hnormal : normalized config header = .ok normal)
    (hassemble : assemble model version normal config data = .ok request) {described : Input}
    (hdescribed : described ∈ config.inputs) :
    ∃ given pieces, Assembled normal data request described given pieces := by
  obtain ⟨-, -, hdistinct, hsettles, -⟩ := normalized_eq_ok_iff.1 hnormal
  obtain ⟨-, htensors, -⟩ := assemble_eq_ok_iff.1 hassemble
  have hnames := map_name_of_settles hsettles
  have htensorNames : request.inputs.map (·.name) = normal.inputs.map (·.name) := by
    refine (SideBySide.map_eq_map htensors fun _ _ h ↦ ?_).symm
    obtain ⟨_, _, -, -, -, rfl⟩ := assembleInput_eq_ok_iff.1 h
    rfl
  have hmem : described.name ∈ header.inputs.map (·.name) :=
    (inputs_perm_of_normalized hnormal).mem_iff.2 (List.mem_map_of_mem hdescribed)
  obtain ⟨raw, hraw, hrawName⟩ := List.mem_map.1 hmem
  obtain ⟨given, hgiven, hsettled⟩ := SideBySide.exists_of_mem_left hsettles hraw
  obtain ⟨tensor, htensor, hassembled⟩ := SideBySide.exists_of_mem_left htensors hgiven
  obtain ⟨other, hother, -, -, hbytes⟩ := hsettled.described
  obtain ⟨another, pieces, hanother, hpieces, hlength, rfl⟩ := assembleInput_eq_ok_iff.1 hassembled
  have hname : given.name = described.name := hsettled.name.trans hrawName
  have hfind : config.findInput described.name = some described :=
    hconfig.findInput_eq_some_iff.2 ⟨hdescribed, rfl⟩
  obtain rfl : described = other := Option.some.inj (hfind.symm.trans (hrawName ▸ hother))
  obtain rfl : described = another := Option.some.inj (hfind.symm.trans (hname ▸ hanother))
  obtain ⟨hexact, hlt, hexpected⟩ := batchBytes_eq_some hbytes
  have hbatch := batch_of_normalized hnormal
  rw [hname] at hpieces htensor
  refine ⟨given, pieces, ?_, hpieces, ?_, ?_, ?_, hlength ▸ hlt⟩
  · have hgivenDistinct : (normal.inputs.map (·.name)).Nodup := hnames ▸ hdistinct
    exact (Named.find?_eq_some_iff hgivenDistinct).2 ⟨hgiven, hname⟩
  · have htensorDistinct : (request.inputs.map (·.name)).Nodup := htensorNames ▸ hnames ▸ hdistinct
    unfold input
    rw [(Named.find?_eq_some_iff htensorDistinct).2 ⟨htensor, rfl⟩]
  · rw [hlength, hbatch, hexact]
  · rw [hlength, hbatch, hexpected]

end TensorInference.Inference.Request
