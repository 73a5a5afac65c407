import TensorInference.Platform.Identity
import TensorInference.Proofs.Inference.Assembly
import TensorInference.Proofs.Platform.Program

/-!
# The identity platform copies

For a valid model that the platform takes, a normal header, assembled data and a created response,
an execution always succeeds and the response can be completed: no stage after acceptance fails.
Every output that was asked for holds the bytes of the input at the same position, piece after
piece, and is described with the settled shape of that input.
-/

namespace TensorInference.Platform

open Model Inference Wire

namespace Identity

theorem pair_eq_ok_iff {config : Config} {input : Input} {output : Output}
    {names : String × String} :
    pair config input output = .ok names ↔
      input.type = output.type ∧ names = (input.name, output.name) := by
  unfold pair
  dsimp only
  split
  · rename_i h
    rw [Outcome.ok_eq_ok_iff]
    exact ⟨fun hnames ↦ ⟨h, hnames⟩, And.right⟩
  · rename_i h
    exact ⟨fun hnames ↦ by simp at hnames, fun hnames ↦ absurd hnames.1 h⟩

theorem pairs_eq_ok_iff {config : Config} {names : List (String × String)} :
    pairs config = .ok names ↔ config.inputs.length = config.outputs.length ∧
      (∀ tensors ∈ config.inputs.zip config.outputs, tensors.1.type = tensors.2.type) ∧
      names = (config.inputs.zip config.outputs).map fun tensors ↦
        (tensors.1.name, tensors.2.name) := by
  rw [← SideBySide.forall₂_eq_map_iff, ← List.forall₂_and_left]
  unfold pairs
  dsimp only
  split
  · rename_i h
    rw [Outcome.mapM_eq_ok_iff]
    simp only [pair_eq_ok_iff, h, true_and]
  · rename_i h
    exact ⟨fun hnames ↦ by simp at hnames, fun hnames ↦ absurd hnames.1 h⟩

/-- What an execution stores under the name of an output: the tensor of an input. -/
def CopyOf (request : Request) (names : String × String) (stored : String × OutputTensor) : Prop :=
  stored.1 = names.2 ∧ ∃ input, request.input names.1 = .ok input ∧
    stored.2 = { shape := input.shape, data := input.data }

/-- The program stores the copies one after the other. -/
theorem program_eq_storingAll {request : Request} {names : List (String × String)}
    {tensors : List (String × OutputTensor)}
    (hcopies : List.Forall₂ (CopyOf request) names tensors) :
    program request names = .storingAll tensors := by
  induction hcopies with
  | nil => rfl
  | @cons name stored _ _ hcopy _ ih =>
    obtain ⟨source, target⟩ := name
    obtain ⟨output, tensor⟩ := stored
    obtain ⟨rfl, input, hinput, rfl⟩ := hcopy
    rw [program, Program.withInput_of_ok hinput, ih, Program.storingAll]

/-- If every copy is accepted, the program keeps all of them and ends with success. -/
theorem advance_program {request : Request} {names : List (String × String)}
    {tensors : List (String × OutputTensor)} {response : Response}
    (hcopies : List.Forall₂ (CopyOf request) names tensors)
    (haccepts : ∀ stored ∈ tensors, response.Accepts stored.1 stored.2) :
    (program request names).advance response =
      (response.keepAll tensors, .finished (.ok ())) := by
  rw [program_eq_storingAll hcopies, Program.advance_storingAll haccepts]

/-- What an execution stores for an input and an output of the model: the assembled pieces under
the name of the output. -/
def Copied (normal : RequestHeader) (data : InputData) (request : Request)
    (described : Input × Output) (stored : String × OutputTensor) : Prop :=
  stored.1 = described.2.name ∧ ∃ given pieces,
    Request.Assembled normal data request described.1 given pieces ∧
      stored.2 = { shape := given.shape, data := pieces.flatten }

/-- Every output of the model has its copy, and the response accepts all of them. -/
theorem exists_copied {config : Config} {model : String} {header normal : RequestHeader}
    {version served : UInt64} {data : InputData} {request : Request} {labels : Labels}
    {response : Response} (hconfig : config.WellFormed)
    (hnormal : normalized config header = .ok normal)
    (hassemble : Request.assemble model version normal config data = .ok request)
    (hresponse : Response.create normal config served labels = .ok response)
    (hlength : config.inputs.length = config.outputs.length)
    (htypes : ∀ tensors ∈ config.inputs.zip config.outputs, tensors.1.type = tensors.2.type) :
    ∃ tensors,
      List.Forall₂ (Copied normal data request) (config.inputs.zip config.outputs) tensors ∧
      tensors.map (·.1) = config.outputs.map (·.name) ∧
      ∀ stored ∈ tensors, response.Accepts stored.1 stored.2 := by
  have hdistinct := (outputs_of_normalized hnormal).2
  have hcopied : ∀ described ∈ config.inputs.zip config.outputs, ∃ stored,
      Copied normal data request described stored := by
    rintro ⟨input, output⟩ hmem
    obtain ⟨given, pieces, hinput⟩ :=
      Request.exists_assembled hconfig hnormal hassemble (List.of_mem_zip hmem).1
    exact ⟨(output.name, _), rfl, given, pieces, hinput, rfl⟩
  obtain ⟨tensors, htensors⟩ := SideBySide.exists_forall₂_iff.2 hcopied
  refine ⟨tensors, htensors, ?_, ?_⟩
  · rw [← List.map_snd_zip (Nat.le_of_eq hlength.symm), List.map_map]
    exact (SideBySide.map_eq_map htensors fun _ _ h ↦ h.1.symm).symm
  · rintro ⟨name, tensor⟩ hstored
    obtain ⟨⟨input, output⟩, hmem, rfl, given, pieces, hinput, rfl⟩ :=
      SideBySide.exists_of_mem_right htensors hstored
    have hexpected := hinput.expected
    rw [htypes _ hmem] at hexpected
    exact Response.accepts_of_create hconfig hdistinct hresponse (List.of_mem_zip hmem).2 hexpected

/-- Every output that is asked for is a copy of the input at the same position. -/
theorem copies_inputs {declared config : Config} {directory model : String} {executor : Executor}
    {header normal : RequestHeader} {version served : UInt64} {data : InputData}
    {request : Request} {labels : Labels} {response : Response}
    (hvalid : declared.validate directory = .ok config)
    (hcreate : create config = .ok executor)
    (hnormal : normalized config header = .ok normal)
    (hassemble : Request.assemble model version normal config data = .ok request)
    (hresponse : Response.create normal config served labels = .ok response) :
    ∃ stored final,
      (executor request).advance response = (stored, .finished (.ok ())) ∧
      stored.finalize = .ok final ∧
      final.header.outputs.map (·.name) = Response.askedNames config header ∧
      (∀ (i : Nat) (output : Output), config.outputs[i]? = some output →
        output.name ∈ Response.askedNames config header →
        ∃ input given pieces,
          config.inputs[i]? = some input ∧ normal.findInput input.name = some given ∧
          data.get? input.name = some pieces ∧ final.output output.name = .ok pieces.flatten ∧
          ∀ entry ∈ final.header.outputs, entry.name = output.name →
            (entry.raw.isSome ↔ Response.askedClasses header output.name = none) ∧
            ∀ raw, entry.raw = some raw →
              raw.shape = given.shape ∧ raw.byteSize.toNat = pieces.flatten.length) ∧
      ∀ name, name ∉ Response.askedNames config header →
        ∃ status, final.output name = .error status ∧ status.code = .notFound := by
  have hconfig := Config.wellFormed_of_validate hvalid
  obtain ⟨houtputs, hdistinct⟩ := outputs_of_normalized hnormal
  obtain ⟨names, hnames, hexecutor⟩ := Outcome.bind_eq_ok_iff.1 hcreate
  obtain rfl := Except.ok.inj hexecutor
  obtain ⟨hlength, htypes, rfl⟩ := pairs_eq_ok_iff.1 hnames
  obtain ⟨tensors, htensors, htensorNames, haccepts⟩ :=
    exists_copied hconfig hnormal hassemble hresponse hlength htypes
  have hcopies : List.Forall₂ (CopyOf request)
      ((config.inputs.zip config.outputs).map fun described ↦
        (described.1.name, described.2.name)) tensors := by
    rw [List.forall₂_map_left_iff]
    refine htensors.imp fun described stored h ↦ ?_
    obtain ⟨hname, given, pieces, hinput, hstored⟩ := h
    exact ⟨hname, _, hinput.input, hstored⟩
  obtain ⟨final, hfinal, hanswers⟩ :=
    Response.exists_answers hconfig hdistinct hresponse htensorNames
  have hasked : Response.askedNames config normal = Response.askedNames config header :=
    Response.askedNames_congr houtputs
  have hclasses : Response.askedClasses normal = Response.askedClasses header :=
    Response.askedClasses_congr houtputs
  refine ⟨_, final, advance_program hcopies haccepts, hfinal, hasked ▸ hanswers.names, ?_,
    hasked ▸ hanswers.missing⟩
  intro i output houtput hname
  obtain ⟨input, hinput⟩ : ∃ input, config.inputs[i]? = some input := by
    have hlt := (List.getElem?_eq_some_iff.1 houtput).1
    exact ⟨_, List.getElem?_eq_getElem (hlength ▸ hlt)⟩
  have hmem : (input, output) ∈ config.inputs.zip config.outputs :=
    List.mem_of_getElem? (List.getElem?_zip_eq_some.2 ⟨hinput, houtput⟩)
  obtain ⟨⟨_, _⟩, hstored, rfl, given, pieces, hassembled, rfl⟩ :=
    SideBySide.exists_of_mem_left htensors hmem
  refine ⟨input, given, pieces, hinput, hassembled.found, hassembled.provided,
    hanswers.data _ (hasked ▸ hname) _ hstored, ?_⟩
  intro entry hentry hentryName
  have hraw := hanswers.raw entry hentry _ (hentryName ▸ hstored)
  rw [hclasses, hentryName] at hraw
  rw [hraw]
  split
  · rename_i hnone
    refine ⟨by simp [hnone], fun raw heq ↦ ?_⟩
    obtain rfl := Option.some.inj heq
    exact ⟨rfl, UInt64.toNat_ofNat_of_lt' hassembled.length_lt⟩
  · rename_i hsome
    exact ⟨by simp [hsome], fun raw heq ↦ by simp at heq⟩

/-- A model with one input of open size, which it copies to its one output. -/
def echo : Config where
  name := "echo"
  platform := "identity"
  maxBatch := 4
  inputs := [{ name := "in", type := .int16, shape := [-1] }]
  outputs := [{ name := "out", type := .int16, shape := [-1], labelFile := none }]
  policy := .latest 1
  instances := 1

/-- A batch of two items of one element each. -/
def echoHeader : RequestHeader where
  id := 7
  batch := 2
  inputs := [{ name := "in", shape := [1], byteSize := 0 }]
  outputs := []

theorem copies_inputs_echo :
    ∃ executor normal request response stored final,
      create echo = .ok executor ∧ normalized echo echoHeader = .ok normal ∧
      Request.assemble "echo" 1 normal echo (InputData.ofPieces [("in", [1]), ("in", [2, 3, 4])]) =
        .ok request ∧
      Response.create normal echo 1 .empty = .ok response ∧
      (executor request).advance response = (stored, .finished (.ok ())) ∧
      stored.finalize = .ok final ∧ final.output "out" = .ok [1, 2, 3, 4] := by
  have hvalid : echo.validate "echo" = .ok echo := by rfl
  obtain ⟨stored, final, hadvance, hfinal, -, hcopied, -⟩ :=
    @copies_inputs echo echo "echo" "echo" _ echoHeader _ 1 1
      (InputData.ofPieces [("in", [1]), ("in", [2, 3, 4])]) _ .empty _ hvalid
      (by rfl) (by rfl) (by rfl) (by rfl)
  obtain ⟨input, given, pieces, hinput, -, hpieces, houtput, -⟩ :=
    hcopied 0 _ (by rfl) (by simp [Response.askedNames, echo, echoHeader])
  obtain rfl := Option.some.inj hinput
  have hgiven : (InputData.ofPieces [("in", [1]), ("in", [2, 3, 4])]).get? "in" =
      some [[1], [2, 3, 4]] := by rfl
  obtain rfl := Option.some.inj (hpieces.symm.trans hgiven)
  exact ⟨_, _, _, _, stored, final, rfl, rfl, rfl, rfl, hadvance, hfinal, houtput⟩

end Identity

end TensorInference.Platform
