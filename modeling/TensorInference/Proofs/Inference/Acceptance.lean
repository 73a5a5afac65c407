import TensorInference.Proofs.Inference.Assembly
import TensorInference.Proofs.Inference.Completion

/-!
# The contract of a request

`Acceptable` says what a caller has to keep to, without any order of checks. Normalization, assembly
and the creation of a response check parts of it one after the other, and each relies on what those
before it found; together they pass exactly the acceptable requests.
-/

namespace TensorInference.Inference

open Model Wire

variable {config : Config} {header : RequestHeader} {data : InputData}

/-- What a caller has to keep to for one input of a model. -/
structure Provides (batch : UInt32) (data : InputData) (described : Input) (given : RequestInput) :
    Prop where
  /-- The shape is left out where the model fixes it, or it fits the model's. -/
  shape : ShapeSettles described given
  /-- The bytes of the whole batch can be counted in 64 bits. -/
  bounded : exactBytes batch described.type (settledShape described given) < 2 ^ 64
  size : given.byteSize = 0 ∨
    given.byteSize.toNat = exactBytes batch described.type (settledShape described given)
  /-- The pieces of data have the right size together. -/
  data : ∃ pieces, data.get? given.name = some pieces ∧
    (pieces.map List.length).sum = exactBytes batch described.type (settledShape described given)

/-- What a caller has to keep to for a model. -/
structure Acceptable (config : Config) (header : RequestHeader) (data : InputData) : Prop where
  batch_pos : 1 ≤ header.batch.toNat
  batch_le : header.batch.toNat ≤ max 1 config.maxBatch.toNat
  /-- The inputs are those of the model, in any order. -/
  inputs : (header.inputs.map (·.name)).Perm (config.inputs.map (·.name))
  provides : ∀ given ∈ header.inputs, ∀ described ∈ config.inputs, described.name = given.name →
    Provides header.batch data described given
  /-- Data are given for nothing else. -/
  keys : ∀ name ∈ data.keys, name ∈ header.inputs.map (·.name)
  outputs_distinct : (header.outputs.map (·.name)).Nodup
  outputs_known : ∀ output ∈ header.outputs, output.name ∈ config.outputs.map (·.name)
  /-- Classes are asked for in a positive number, and only where they can be ranked. -/
  classes : ∀ output ∈ header.outputs, ∀ count, output.classes = some count →
    count ≠ 0 ∧ ∀ described ∈ config.outputs, described.name = output.name → described.type ≠ .bool

theorem settledShape_pos {described : Input} {given : RequestInput}
    (hdescribed : described.shape.isDescription = true) (h : ShapeSettles described given) :
    ∀ size ∈ settledShape described given, 0 < size := by
  unfold settledShape
  rcases h with ⟨hgiven, hfixed⟩ | ⟨hgiven, hfits⟩
  · rw [if_pos hgiven]
    intro size hsize
    simp only [Shape.isDescription, Shape.isFixed, List.all_eq_true, Bool.or_eq_true,
      decide_eq_true_eq] at hdescribed hfixed
    rcases hdescribed size hsize with hpos | hopen
    · exact hpos
    · have hnonneg := hfixed size hsize
      rw [hopen] at hnonneg
      exact absurd hnonneg (by decide)
  · rw [if_neg hgiven]
    exact hfits.pos

/-- The size of a settled input is exact. -/
theorem Settles.exact {batch : UInt32} {given settled : RequestInput} {described : Input}
    (h : Settles config batch given settled)
    (hfind : config.findInput given.name = some described) :
    ShapeSettles described given ∧
      exactBytes batch described.type (settledShape described given) < 2 ^ 64 ∧
      settled.byteSize.toNat = exactBytes batch described.type (settledShape described given) := by
  obtain ⟨other, hother, hsettles, hshape, hbytes⟩ := h.described
  obtain rfl : described = other := Option.some.inj (hfind.symm.trans hother)
  obtain ⟨hexact, hlt, -⟩ := batchBytes_eq_some hbytes
  rw [hshape] at hexact
  exact ⟨hsettles, hexact ▸ hlt, hexact⟩

theorem exists_settles {batch : UInt32} {given : RequestInput} {described : Input}
    (hbatch : 0 < batch.toNat) (hdescribed : described.shape.isDescription = true)
    (hfind : config.findInput given.name = some described)
    (h : Provides batch data described given) :
    ∃ settled, Settles config batch given settled := by
  have hpos := settledShape_pos hdescribed h.shape
  obtain ⟨size, hsize⟩ : ∃ size : UInt64,
      size.toNat = exactBytes batch described.type (settledShape described given) :=
    ⟨_, UInt64.toNat_ofNat_of_lt' h.bounded⟩
  refine ⟨{ given with shape := settledShape described given, byteSize := size }, rfl,
    ⟨described, hfind, h.shape, rfl, ?_⟩, ?_⟩
  · rw [hsize, batchBytes_of_pos hbatch hpos, if_pos h.bounded]
  · exact h.size.imp_right fun hgiven ↦ UInt64.toNat_inj.1 (hgiven.trans hsize.symm)

theorem exists_assemble_iff {model : String} {version : UInt64} :
    (∃ request, Request.assemble model version header config data = .ok request) ↔
      (∀ name ∈ data.keys, name ∈ header.inputs.map (·.name)) ∧
        ∀ input ∈ header.inputs, ∃ described pieces,
          config.findInput input.name = some described ∧ data.get? input.name = some pieces ∧
            pieces.flatten.length = input.byteSize.toNat := by
  have hinput : ∀ input, (∃ tensor, Request.assembleInput model config data input = .ok tensor) ↔
      ∃ described pieces, config.findInput input.name = some described ∧
        data.get? input.name = some pieces ∧ pieces.flatten.length = input.byteSize.toNat := by
    intro input
    simp only [Request.assembleInput_eq_ok_iff]
    constructor
    · rintro ⟨tensor, described, pieces, hfind, hpieces, hlength, -⟩
      exact ⟨described, pieces, hfind, hpieces, hlength⟩
    · rintro ⟨described, pieces, hfind, hpieces, hlength⟩
      exact ⟨_, described, pieces, hfind, hpieces, hlength, rfl⟩
  simp only [← hinput, ← SideBySide.exists_forall₂_iff, Request.assemble_eq_ok_iff]
  constructor
  · rintro ⟨request, hkeys, hinputs, -⟩
    exact ⟨hkeys, request.inputs, hinputs⟩
  · rintro ⟨hkeys, inputs, hinputs⟩
    exact ⟨{ model, version, header, inputs }, hkeys, hinputs, rfl⟩

theorem exists_create_iff {version : UInt64} {labels : Labels} :
    (∃ response, Response.create header config version labels = .ok response) ↔
      ∀ output ∈ header.outputs, ∃ described, config.findOutput output.name = some described ∧
        ∀ count, output.classes = some count → count ≠ 0 ∧ described.type ≠ .bool := by
  have hwant : ∀ output, (∃ wanted, Response.wantOutput config output = .ok wanted) ↔
      ∃ described, config.findOutput output.name = some described ∧
        ∀ count, output.classes = some count → count ≠ 0 ∧ described.type ≠ .bool := by
    intro output
    simp only [Response.wantOutput_eq_ok_iff]
    constructor
    · rintro ⟨wanted, described, hfind, hclasses, -⟩
      exact ⟨described, hfind, hclasses⟩
    · rintro ⟨described, hfind, hclasses⟩
      exact ⟨_, described, hfind, hclasses, rfl⟩
  have hcreate : (∃ response, Response.create header config version labels = .ok response) ↔
      ∃ wanted, Response.wantOutputs config header = .ok wanted := by
    constructor
    · rintro ⟨response, h⟩
      obtain ⟨wanted, hwanted, -⟩ := Outcome.bind_eq_ok_iff.1 h
      exact ⟨wanted, hwanted⟩
    · rintro ⟨wanted, hwanted⟩
      exact ⟨_, Outcome.bind_eq_ok_iff.2 ⟨wanted, hwanted, rfl⟩⟩
  rw [hcreate]
  simp only [← hwant]
  unfold Response.wantOutputs
  split
  · rename_i hnone
    simp [hnone]
  · simp only [Outcome.mapM_eq_ok_iff, SideBySide.exists_forall₂_iff]

variable {model : String} {version served : UInt64} {labels : Labels}

theorem acceptable_of_stages {normal : RequestHeader} {request : Request} {response : Response}
    (hconfig : config.WellFormed) (hnormal : normalized config header = .ok normal)
    (hrequest : Request.assemble model version normal config data = .ok request)
    (hresponse : Response.create normal config served labels = .ok response) :
    Acceptable config header data := by
  obtain ⟨⟨hpos, hle⟩, -, hdistinct, hsettles, hwanted, hknown, hheader⟩ :=
    normalized_eq_ok_iff.1 hnormal
  obtain ⟨hkeys, hinputs⟩ := exists_assemble_iff.1 ⟨request, hrequest⟩
  have hclasses := exists_create_iff.1 ⟨response, hresponse⟩
  have hnames := map_name_of_settles hsettles
  have houtputs : normal.outputs = header.outputs := (outputs_of_normalized hnormal).1
  refine ⟨hpos, hle, inputs_perm_of_normalized hnormal, ?_, hnames ▸ hkeys, hwanted, hknown, ?_⟩
  · intro given hgiven described hdescribed hname
    obtain ⟨settled, hsettled, h⟩ := SideBySide.exists_of_mem_left hsettles hgiven
    have hfind : config.findInput given.name = some described :=
      hconfig.findInput_eq_some_iff.2 ⟨hdescribed, hname⟩
    obtain ⟨hshape, hbounded, hexact⟩ := h.exact hfind
    obtain ⟨_, pieces, -, hpieces, hlength⟩ := hinputs settled hsettled
    refine ⟨hshape, hbounded, ?_, pieces, h.name ▸ hpieces, ?_⟩
    · rw [← hexact]
      exact h.size.imp_right (congrArg UInt64.toNat)
    · rw [← hexact, ← hlength, List.length_flatten]
  · intro output houtput count hcount
    obtain ⟨found, hfound, hrule⟩ := hclasses output (houtputs ▸ houtput)
    refine ⟨(hrule count hcount).1, fun described hdescribed hname ↦ ?_⟩
    have hfind : config.findOutput output.name = some described :=
      hconfig.findOutput_eq_some_iff.2 ⟨hdescribed, hname⟩
    obtain rfl : found = described := Option.some.inj (hfound.symm.trans hfind)
    exact (hrule count hcount).2

theorem exists_normalized (hconfig : config.WellFormed) (h : Acceptable config header data) :
    ∃ normal, normalized config header = .ok normal := by
  have hsettles : ∀ given ∈ header.inputs, ∃ settled,
      Settles config header.batch given settled := by
    intro given hgiven
    have hmem : given.name ∈ config.inputs.map (·.name) :=
      h.inputs.mem_iff.1 (List.mem_map_of_mem hgiven)
    obtain ⟨described, hdescribed, hname⟩ := List.mem_map.1 hmem
    exact exists_settles h.batch_pos (hconfig.input_shapes described hdescribed)
      (hconfig.findInput_eq_some_iff.2 ⟨hdescribed, hname⟩)
      (h.provides given hgiven described hdescribed hname)
  obtain ⟨inputs, hinputs⟩ := SideBySide.exists_forall₂_iff.2 hsettles
  have hlength : header.inputs.length = config.inputs.length := by
    simpa using h.inputs.length_eq
  have hdistinct : (header.inputs.map (·.name)).Nodup :=
    h.inputs.nodup_iff.2 hconfig.inputs_distinct
  exact ⟨{ header with inputs }, normalized_eq_ok_iff.2 ⟨⟨h.batch_pos, h.batch_le⟩, hlength,
    hdistinct, hinputs, h.outputs_distinct, h.outputs_known, rfl⟩⟩

theorem exists_assemble {normal : RequestHeader} (hconfig : config.WellFormed)
    (h : Acceptable config header data) (hnormal : normalized config header = .ok normal) :
    ∃ request, Request.assemble model version normal config data = .ok request := by
  obtain ⟨-, -, -, hsettles, -⟩ := normalized_eq_ok_iff.1 hnormal
  have hnames := map_name_of_settles hsettles
  rw [exists_assemble_iff, hnames]
  refine ⟨h.keys, fun settled hsettled ↦ ?_⟩
  obtain ⟨given, hgiven, hsettle⟩ := SideBySide.exists_of_mem_right hsettles hsettled
  obtain ⟨described, hfind, -⟩ := hsettle.described
  obtain ⟨hdescribed, hname⟩ := hconfig.findInput_eq_some_iff.1 hfind
  obtain ⟨pieces, hpieces, hsum⟩ := (h.provides given hgiven described hdescribed hname).data
  refine ⟨described, pieces, hsettle.name ▸ hfind, hsettle.name ▸ hpieces, ?_⟩
  rw [List.length_flatten, hsum, (hsettle.exact hfind).2.2]

theorem exists_create {normal : RequestHeader} (hconfig : config.WellFormed)
    (h : Acceptable config header data) (houtputs : normal.outputs = header.outputs) :
    ∃ response, Response.create normal config served labels = .ok response := by
  rw [exists_create_iff, houtputs]
  intro output houtput
  obtain ⟨described, hdescribed, hname⟩ := List.mem_map.1 (h.outputs_known output houtput)
  refine ⟨described, hconfig.findOutput_eq_some_iff.2 ⟨hdescribed, hname⟩, fun count hcount ↦ ?_⟩
  obtain ⟨hpos, htype⟩ := h.classes output houtput count hcount
  exact ⟨hpos, htype described hdescribed hname⟩

theorem exists_wantOutputs (hconfig : config.WellFormed) (h : Acceptable config header data) :
    ∃ wanted, Response.wantOutputs config header = .ok wanted := by
  obtain ⟨response, hcreate⟩ := @exists_create config header data 0 .empty header hconfig h rfl
  obtain ⟨wanted, hwanted, -⟩ := Outcome.bind_eq_ok_iff.1 hcreate
  exact ⟨wanted, hwanted⟩

/-- The stages pass exactly the acceptable requests. -/
theorem stages_iff_acceptable (hconfig : config.WellFormed) :
    (∃ normal request response, normalized config header = .ok normal ∧
      Request.assemble model version normal config data = .ok request ∧
      Response.create normal config served labels = .ok response) ↔
        Acceptable config header data := by
  constructor
  · rintro ⟨normal, request, response, hnormal, hrequest, hresponse⟩
    exact acceptable_of_stages hconfig hnormal hrequest hresponse
  · intro h
    obtain ⟨normal, hnormal⟩ := exists_normalized hconfig h
    obtain ⟨request, hrequest⟩ := exists_assemble hconfig h hnormal
    obtain ⟨response, hresponse⟩ := exists_create hconfig h (outputs_of_normalized hnormal).1
    exact ⟨normal, request, response, hnormal, hrequest, hresponse⟩

end TensorInference.Inference
