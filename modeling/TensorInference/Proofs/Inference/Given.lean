import TensorInference.Proofs.Inference.Acceptance

/-!
# What an accepted submission gives

`Submission.tensor` says in closed form which tensor a submission gives for an input of the model:
the shape that is given or else the described one, and the pieces of data joined. For an accepted
submission this is the tensor of the assembled request, and it has the exact size. Nothing in it
depends on the order of the inputs, on how the data are cut or on which outputs are asked for.
-/

namespace TensorInference.Inference

open Model Wire

/-- The shape that a request has for an input of the model. -/
def shapeOf (header : RequestHeader) (described : Input) : Shape :=
  ((header.findInput described.name).map (settledShape described)).getD described.shape

/-- The bytes given for an input, piece after piece. -/
def InputData.joined (data : InputData) (name : String) : Bytes :=
  ((data.get? name).getD []).flatten

/-- The tensor that a submission gives for an input of the model. -/
def Submission.tensor (submission : Submission) (described : Input) : InputTensor where
  name := described.name
  type := described.type
  shape := shapeOf submission.header described
  data := submission.data.joined described.name

variable {config : Config} {header normal : RequestHeader} {data : InputData} {described : Input}
  {submission : Submission}

theorem shapeOf_of_findInput {given : RequestInput}
    (h : header.findInput described.name = some given) :
    shapeOf header described = settledShape described given := by
  rw [shapeOf, h]
  rfl

theorem InputData.joined_of_get? {name : String} {pieces : List Bytes}
    (h : data.get? name = some pieces) : data.joined name = pieces.flatten := by
  rw [joined, h]
  rfl

/-- An input of the model is given as the caller has to provide it. -/
theorem Acceptable.exists_provides (h : Acceptable config header data)
    (hdescribed : described ∈ config.inputs) :
    ∃ given, header.findInput described.name = some given ∧
      Provides header.batch data described given := by
  have hmem : described.name ∈ header.inputs.map (·.name) :=
    h.inputs.mem_iff.2 (List.mem_map_of_mem hdescribed)
  obtain ⟨given, hgiven⟩ := Option.isSome_iff_exists.1 (Named.isSome_find?_iff.2 hmem)
  have hname : given.name = described.name := by simpa using List.find?_some hgiven
  exact ⟨given, hgiven,
    h.provides given (List.mem_of_find?_eq_some hgiven) described hdescribed hname.symm⟩

/-- A tensor of positive size that fills its shape. -/
structure Fills (batch : UInt32) (described : Input) (tensor : InputTensor) : Prop where
  volume_pos : 0 < tensor.shape.volume
  length : tensor.data.length = exactBytes batch described.type tensor.shape
  expected : Response.expectedBytes batch described.type tensor.shape = some tensor.data.length

theorem fills_of_acceptable (hconfig : config.WellFormed)
    (h : Acceptable config submission.header submission.data)
    (hdescribed : described ∈ config.inputs) :
    Fills submission.header.batch described (submission.tensor described) := by
  obtain ⟨given, hgiven, hprovides⟩ := h.exists_provides hdescribed
  have hname : given.name = described.name := by simpa using List.find?_some hgiven
  have hshape := shapeOf_of_findInput hgiven
  have hpos : ∀ size ∈ shapeOf submission.header described, 0 < size := by
    rw [hshape]
    exact settledShape_pos (hconfig.input_shapes described hdescribed) hprovides.shape
  obtain ⟨pieces, hpieces, hsum⟩ := hprovides.data
  have hlength : (submission.tensor described).data.length =
      exactBytes submission.header.batch described.type (shapeOf submission.header described) := by
    rw [Submission.tensor, InputData.joined_of_get? (hname ▸ hpieces), List.length_flatten, hsum,
      hshape]
  have hbytes := @batchBytes_of_pos submission.header.batch described.type _ h.batch_pos hpos
  rw [if_pos (hshape ▸ hprovides.bounded)] at hbytes
  exact ⟨Shape.volume_pos hpos, hlength, hlength ▸ (batchBytes_eq_some hbytes).2.2⟩

theorem shape_of_normalized (hnormal : normalized config header = .ok normal)
    (hfind : config.findInput described.name = some described) {settled : RequestInput}
    (hsettled : normal.findInput described.name = some settled) :
    settled.shape = shapeOf header described := by
  obtain ⟨-, -, hdistinct, hsettles, -⟩ := normalized_eq_ok_iff.1 hnormal
  obtain ⟨given, hgiven, h⟩ :=
    SideBySide.exists_of_mem_right hsettles (List.mem_of_find?_eq_some hsettled)
  have hname : given.name = described.name :=
    h.name.symm.trans (by simpa using List.find?_some hsettled)
  obtain ⟨other, hother, -, hshape, -⟩ := h.described
  obtain rfl : described = other := Option.some.inj (hfind.symm.trans (hname ▸ hother))
  rw [hshape, shapeOf_of_findInput ((Named.find?_eq_some_iff hdistinct).2 ⟨hgiven, hname⟩)]

/-- The tensors of an assembled request are the given ones. -/
theorem input_of_assemble {model : String} {version : UInt64} {request : Request}
    (hconfig : config.WellFormed) (hnormal : normalized config submission.header = .ok normal)
    (hassemble : Request.assemble model version normal config submission.data = .ok request)
    (hdescribed : described ∈ config.inputs) :
    request.input described.name = .ok (submission.tensor described) := by
  obtain ⟨settled, pieces, hassembled⟩ :=
    Request.exists_assembled hconfig hnormal hassemble hdescribed
  have hfind : config.findInput described.name = some described :=
    hconfig.findInput_eq_some_iff.2 ⟨hdescribed, rfl⟩
  rw [hassembled.input, shape_of_normalized hnormal hfind hassembled.found,
    ← InputData.joined_of_get? hassembled.provided]
  rfl

end TensorInference.Inference
