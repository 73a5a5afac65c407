import TensorInference.Proofs.Server.Standard

/-!
# Asking for some of the outputs

Which outputs a request asks for decides what is described and what is kept, and nothing else. The
response to a request for some outputs is the part of the response to the request for all of them
that was asked for: classes take the place of a description, never of the tensor.
-/

namespace TensorInference

open Model Inference Wire

namespace Inference

variable {config : Config} {header : RequestHeader} {outputs : List RequestOutput}

/-- Outputs that a request may ask for: different outputs of the model, and classes only in a
positive number and where they can be ranked. -/
structure Askable (config : Config) (outputs : List RequestOutput) : Prop where
  distinct : (outputs.map (·.name)).Nodup
  known : ∀ output ∈ outputs, output.name ∈ config.outputs.map (·.name)
  classes : ∀ output ∈ outputs, ∀ count, output.classes = some count →
    count ≠ 0 ∧ ∀ described ∈ config.outputs, described.name = output.name → described.type ≠ .bool

/-- What a list of outputs asks for: an empty one asks for all outputs of the model as tensors. -/
def asked (config : Config) (outputs : List RequestOutput) : List RequestOutput :=
  if outputs = [] then config.outputs.map fun output ↦ { name := output.name, classes := none }
  else outputs

/-- The same submission for other outputs. -/
def Submission.asking (submission : Submission) (outputs : List RequestOutput) : Submission :=
  { submission with header := { submission.header with outputs } }

theorem Acceptable.asking {submission : Submission}
    (h : Acceptable config submission.header submission.data) (houtputs : Askable config outputs) :
    Acceptable config (submission.asking outputs).header (submission.asking outputs).data :=
  ⟨h.batch_pos, h.batch_le, h.inputs, h.provides, h.keys, houtputs.distinct, houtputs.known,
    houtputs.classes⟩

namespace Response

/-- Every output that is asked for is wanted, and an empty list wants what the full one does. -/
theorem forall₂_wantOutput {wanted : List WantedOutput} (hconfig : config.WellFormed)
    (h : wantOutputs config header = .ok wanted) :
    List.Forall₂ (fun output want ↦ wantOutput config output = .ok want)
      (asked config header.outputs) wanted := by
  unfold wantOutputs at h
  unfold asked
  split at h
  · rename_i hnone
    obtain rfl := Except.ok.inj h
    rw [if_pos hnone, List.forall₂_map_left_iff, List.forall₂_map_right_iff, List.forall₂_same]
    intro output houtput
    have hfind : config.findOutput output.name = some output :=
      hconfig.findOutput_eq_some_iff.2 ⟨houtput, rfl⟩
    exact wantOutput_eq_ok_iff.2 ⟨output, hfind, fun _ hcount ↦ (nomatch hcount), rfl⟩
  · rename_i hsome
    rw [if_neg hsome]
    exact Outcome.mapM_eq_ok_iff.1 h

theorem map_name_of_forall₂ {asked : List RequestOutput} {wanted : List WantedOutput}
    (h : List.Forall₂ (fun output want ↦ wantOutput config output = .ok want) asked wanted) :
    wanted.map (·.name) = asked.map (·.name) := by
  refine (SideBySide.map_eq_map h fun output want hwant ↦ ?_).symm
  obtain ⟨_, -, -, rfl⟩ := wantOutput_eq_ok_iff.1 hwant
  rfl

/-- A request for all outputs wants the tensor of any output that can be wanted. -/
theorem tensor_mem_of_all {wanted : List WantedOutput} (hconfig : config.WellFormed)
    (hall : header.outputs = []) (h : wantOutputs config header = .ok wanted)
    {output : RequestOutput} {want : WantedOutput} (hwant : wantOutput config output = .ok want) :
    { want with classes := none } ∈ wanted := by
  rw [wantOutputs, if_pos hall] at h
  obtain rfl := Except.ok.inj h
  obtain ⟨described, hfind, -, rfl⟩ := wantOutput_eq_ok_iff.1 hwant
  obtain ⟨hdescribed, hname⟩ := hconfig.findOutput_eq_some_iff.1 hfind
  exact List.mem_map.2 ⟨described, hdescribed, by rw [hname]⟩

/-- How the response to a request for some outputs is part of the response to the request for all
of them. -/
structure Projects (outputs : List RequestOutput) (whole part : Response) : Prop where
  /-- The header lists what is asked for in that order, a tensor as the whole response does and
  classes without a description of the tensor. -/
  entries : List.Forall₂ (fun output entry ↦ entry.name = output.name ∧
    (output.classes = none → entry ∈ whole.header.outputs) ∧
    (output.classes ≠ none → entry.raw = none)) outputs part.header.outputs
  kept : ∀ output ∈ outputs, ∃ bytes,
    whole.output output.name = .ok bytes ∧ part.output output.name = .ok bytes
  dropped : ∀ name, name ∉ outputs.map (·.name) →
    ∃ status, part.output name = .error status ∧ status.code = .notFound

/-- Responses that were given the same results differ by what is wanted of them. -/
theorem Completes.projects {tensors : List (String × OutputTensor)}
    {opening other whole part : Response} (hwhole : Completes opening tensors whole)
    (hpart : Completes other tensors part) (hdistinct : (tensors.map (·.1)).Nodup)
    (hopening : ∀ want ∈ other.wanted,
      { want with classes := none } ∈ opening.wanted)
    (houtputs : List.Forall₂ (fun output want ↦ wantOutput config output = .ok want) outputs
      other.wanted) : Projects outputs whole part := by
  have hnames := map_name_of_forall₂ houtputs
  refine ⟨?_, ?_, ?_⟩
  · refine (SideBySide.comp houtputs (SideBySide.mem_left hpart.entries)).imp ?_
    rintro output entry ⟨want, houtput, hwant, tensor, htensor, rfl⟩
    obtain ⟨described, -, -, rfl⟩ := wantOutput_eq_ok_iff.1 houtput
    refine ⟨describeTensor_name, fun hnone ↦ ?_, fun hsome ↦ ?_⟩
    · have hentry := hwhole.describeTensor_mem hdistinct (hopening _ hwant) htensor
      rw [describeTensor, hnone]
      exact hentry
    · rw [describeTensor_raw, if_neg hsome]
  · intro output houtput
    obtain ⟨want, hwant, houtput⟩ := SideBySide.exists_of_mem_left houtputs houtput
    obtain ⟨described, -, -, rfl⟩ := wantOutput_eq_ok_iff.1 houtput
    obtain ⟨entry, -, tensor, htensor, -⟩ := SideBySide.exists_of_mem_left hpart.entries hwant
    exact ⟨tensor.data,
      hwhole.data _ _ htensor (requires_iff.2 (List.mem_map_of_mem (hopening _ hwant))),
      hpart.data _ _ htensor (requires_iff.2 (List.mem_map_of_mem hwant))⟩
  · intro name hname
    exact hpart.missing name fun hrequires ↦ hname (hnames ▸ requires_iff.1 hrequires)

end Response

end Inference

namespace Server

variable {backend : Backend} {submission : Submission} {outputs : List RequestOutput}
  {status : Except Status Unit} {whole : Response}

/-- A request for some of the outputs is accepted where the request for all of them is, ends with
the same status, and is answered with the part that it asks for. -/
theorem projects_of_answer (hbackend : backend.Standard) (hall : submission.header.outputs = [])
    (hanswer : backend.answer submission = .ok (status, whole))
    (houtputs : Askable backend.config outputs) :
    ∃ part, backend.answer (submission.asking outputs) = .ok (status, part) ∧
      (status = .ok () → Response.Projects (asked backend.config outputs) whole part) := by
  have hconfig := hbackend.wellFormed
  obtain ⟨kernel, hkernel⟩ := hbackend.exists_kernel
  obtain ⟨hacceptable, wanted, hwanted, hresult⟩ := (hbackend.answer_eq_ok_iff hkernel).1 hanswer
  have hasking := hacceptable.asking houtputs
  obtain ⟨chosen, hchosen⟩ := exists_wantOutputs hconfig hasking
  have hpart := (hbackend.answer_eq_ok_iff hkernel).2 ⟨hasking, chosen, hchosen, rfl⟩
  -- The given tensors do not depend on the outputs.
  have htensor : (submission.asking outputs).tensor = submission.tensor := rfl
  rw [htensor] at hpart
  by_cases hagrees : kernel.Agrees submission.tensor
  · obtain ⟨final, hfinal, hcompletes⟩ :=
      hbackend.conclude_of_agrees hkernel hacceptable.outputs_distinct hwanted hagrees
    obtain ⟨part, hconclude, hprojected⟩ :=
      hbackend.conclude_of_agrees hkernel hasking.outputs_distinct hchosen hagrees
    obtain ⟨rfl, rfl⟩ := Prod.mk.inj (hresult.trans hfinal)
    refine ⟨part, hpart.trans (congrArg Except.ok hconclude), fun _ ↦ ?_⟩
    have hnames : (kernel.results submission.tensor).map (·.1) =
        backend.config.outputs.map (·.name) := hkernel.names
    have hwants := Response.forall₂_wantOutput hconfig hchosen
    refine hcompletes.projects hprojected (hnames ▸ hconfig.outputs_distinct) ?_ hwants
    intro want hwant
    obtain ⟨output, -, houtput⟩ := SideBySide.exists_of_mem_right hwants hwant
    exact Response.tensor_mem_of_all hconfig hall hwanted houtput
  · rw [Backend.conclude_of_not_agrees hagrees] at hpart hresult
    obtain ⟨rfl, rfl⟩ := Prod.mk.inj hresult
    exact ⟨_, hpart, fun hok ↦ by cases hok⟩

theorem projects_of_answer_calculation :
    ∃ whole part, calculatorBackend.answer calculation = .ok (.ok (), whole) ∧
      calculatorBackend.answer (calculation.asking [⟨"difference", some 1⟩]) =
        .ok (.ok (), part) ∧
      Response.Projects [⟨"difference", some 1⟩] whole part := by
  obtain ⟨whole, hwhole⟩ : ∃ whole, calculatorBackend.answer calculation = .ok (.ok (), whole) :=
    ⟨_, rfl⟩
  have houtputs : Askable calculatorBackend.config [⟨"difference", some 1⟩] := by
    refine ⟨by decide, by decide, ?_⟩
    rw [List.forall_mem_singleton]
    rintro count hcount
    obtain rfl := Option.some.inj hcount
    exact ⟨by decide, by decide⟩
  obtain ⟨part, hpart, hprojects⟩ :=
    projects_of_answer standard_calculatorBackend rfl hwhole houtputs
  exact ⟨whole, part, hwhole, hpart, hprojects rfl⟩

/-- A request for none of the outputs is the request for all of them. -/
theorem all_of_asking_nil :
    ∃ whole part, calculatorBackend.Standard ∧ calculation.header.outputs = [] ∧
      calculatorBackend.answer calculation = .ok (.ok (), whole) ∧
      Askable calculatorBackend.config [] ∧
      calculatorBackend.answer (calculation.asking []) = .ok (.ok (), part) ∧
      ¬ part.header.outputs.map (·.name) = ([] : List RequestOutput).map (·.name) ∧
      part.output "sum" = .ok [44, 3] := by
  have houtputs : Askable calculatorBackend.config [] := ⟨by decide, by decide, by decide⟩
  exact ⟨_, _, standard_calculatorBackend, rfl, rfl, houtputs, rfl, by decide, rfl⟩

end Server

end TensorInference
