import TensorInference.Model.Config
import TensorInference.Proofs.Outcomes

/-!
# Valid configurations

Validation accepts exactly the well-formed configurations of a directory, and all it changes is a
missing name. The scans for repeated names find any pair at any distance.
-/

namespace TensorInference.Model

theorem Shape.isDescription_iff {shape : Shape} :
    shape.isDescription = true ↔ ∀ size ∈ shape, size = -1 ∨ 1 ≤ size := by
  have hpos : ∀ size : Int64, 0 < size ↔ 1 ≤ size := by
    intro size
    rw [Int64.lt_iff_toInt_lt, Int64.le_iff_toInt_le, Int64.toInt_zero, Int64.toInt_one]
    omega
  simp only [isDescription, List.all_eq_true, Bool.or_eq_true, decide_eq_true_eq, hpos, or_comm]

namespace Config

/-- What validation asks of a configuration besides its name. -/
structure WellFormed (config : Config) : Prop where
  platform : config.platform ≠ ""
  instances : config.instances ≠ 0
  outputs : config.outputs ≠ []
  inputs_distinct : (config.inputs.map (·.name)).Nodup
  input_shapes : ∀ input ∈ config.inputs, input.shape.isDescription
  outputs_distinct : (config.outputs.map (·.name)).Nodup
  output_shapes : ∀ output ∈ config.outputs, output.shape.isDescription

theorem checkTensors_eq_ok_iff {directory kind : String} {seen : List String}
    {tensors : List (String × Shape)} :
    checkTensors directory kind seen tensors = .ok () ↔
      Named.Unseen seen (tensors.map (·.1)) ∧ ∀ tensor ∈ tensors, tensor.2.isDescription := by
  induction tensors generalizing seen with
  | nil => simp [checkTensors]
  | cons tensor rest ih =>
    obtain ⟨name, shape⟩ := tensor
    rw [checkTensors, List.map_cons, Named.unseen_cons, List.forall_mem_cons]
    simp only [Outcome.guard_eq_ok_iff, ih, not_not]
    tauto

theorem validate_eq_ok_iff {config valid : Config} {directory : String} :
    config.validate directory = .ok valid ↔
      valid = config.named directory ∧ valid.name = directory ∧ valid.WellFormed := by
  have hinputs (c : Config) : (c.inputs.map fun i ↦ (i.name, i.shape)).map (·.1) =
      c.inputs.map (·.name) := by simp
  have houtputs (c : Config) : (c.outputs.map fun o ↦ (o.name, o.shape)).map (·.1) =
      c.outputs.map (·.name) := by simp
  rw [validate]
  simp only [Outcome.guard_eq_ok_iff, Outcome.check_bind_eq_ok_iff, checkTensors_eq_ok_iff, hinputs,
    houtputs, Named.unseen_nil_iff, List.forall_mem_map]
  constructor
  · rintro ⟨hname, hplatform, hinstances, hnonempty, ⟨hi, his⟩, ⟨ho, hos⟩, h⟩
    obtain rfl : config.named directory = valid := Except.ok.inj h
    exact ⟨rfl, not_not.1 hname, hplatform, hinstances, hnonempty, hi, his, ho, hos⟩
  · rintro ⟨rfl, hname, h⟩
    exact ⟨not_not.2 hname, h.platform, h.instances, h.outputs, ⟨h.inputs_distinct,
      h.input_shapes⟩, ⟨h.outputs_distinct, h.output_shapes⟩, rfl⟩

theorem name_named_eq_iff {config : Config} {directory : String} :
    (config.named directory).name = directory ↔ config.name = "" ∨ config.name = directory := by
  rw [named]
  split
  · rename_i hname
    exact ⟨fun _ ↦ .inl hname, fun _ ↦ rfl⟩
  · rename_i hname
    exact ⟨.inr, fun h ↦ h.resolve_left hname⟩

/-- A name is filled in at most. -/
theorem named_eq {config : Config} {directory : String}
    (h : (config.named directory).name = directory) :
    config.named directory = { config with name := directory } := by
  rw [named] at h ⊢
  split at h
  · rename_i hname
    rw [if_pos hname]
  · rename_i hname
    rw [if_neg hname, ← h]

theorem named_of_name {config : Config} : config.named config.name = config := by
  rw [named]
  split
  · rfl
  · rfl

theorem wellFormed_of_validate {config valid : Config} {directory : String}
    (h : config.validate directory = .ok valid) : valid.WellFormed :=
  (validate_eq_ok_iff.1 h).2.2

namespace WellFormed

variable {config : Config}

theorem findInput_eq_some_iff (h : config.WellFormed) {name : String} {input : Input} :
    config.findInput name = some input ↔ input ∈ config.inputs ∧ input.name = name :=
  Named.find?_eq_some_iff h.inputs_distinct

theorem findOutput_eq_some_iff (h : config.WellFormed) {name : String} {output : Output} :
    config.findOutput name = some output ↔ output ∈ config.outputs ∧ output.name = name :=
  Named.find?_eq_some_iff h.outputs_distinct

/-- The name of a configuration has no part in its form. -/
theorem renamed {directory : String} :
    WellFormed { config with name := directory } ↔ config.WellFormed := by
  constructor
  · intro h
    exact ⟨h.platform, h.instances, h.outputs, h.inputs_distinct, h.input_shapes,
      h.outputs_distinct, h.output_shapes⟩
  · intro h
    exact ⟨h.platform, h.instances, h.outputs, h.inputs_distinct, h.input_shapes,
      h.outputs_distinct, h.output_shapes⟩

/-- A valid configuration stays as it is. -/
theorem validate_self (h : config.WellFormed) : config.validate config.name = .ok config :=
  validate_eq_ok_iff.2 ⟨named_of_name.symm, rfl, h⟩

end WellFormed

/-- The form of a valid configuration, field by field. -/
theorem wellFormed_iff {config : Config} : config.WellFormed ↔ config.platform ≠ "" ∧
    1 ≤ config.instances.toNat ∧ 1 ≤ config.outputs.length ∧
    config.inputs.Pairwise (fun a b ↦ a.name ≠ b.name) ∧
    config.outputs.Pairwise (fun a b ↦ a.name ≠ b.name) ∧
    (∀ input ∈ config.inputs, ∀ size ∈ input.shape, size = -1 ∨ 1 ≤ size) ∧
    ∀ output ∈ config.outputs, ∀ size ∈ output.shape, size = -1 ∨ 1 ≤ size := by
  have hinstances : config.instances ≠ 0 ↔ 1 ≤ config.instances.toNat := by
    rw [Ne, ← UInt32.toNat_inj, UInt32.toNat_zero]
    exact Nat.one_le_iff_ne_zero.symm
  have houtputs : config.outputs ≠ [] ↔ 1 ≤ config.outputs.length := List.length_pos_iff.symm
  have hinputNames : (config.inputs.map (·.name)).Nodup ↔
      config.inputs.Pairwise fun a b ↦ a.name ≠ b.name := List.pairwise_map
  have houtputNames : (config.outputs.map (·.name)).Nodup ↔
      config.outputs.Pairwise fun a b ↦ a.name ≠ b.name := List.pairwise_map
  simp only [← Shape.isDescription_iff, ← hinstances, ← houtputs, ← hinputNames, ← houtputNames]
  constructor
  · intro h
    exact ⟨h.platform, h.instances, h.outputs, h.inputs_distinct, h.outputs_distinct,
      h.input_shapes, h.output_shapes⟩
  · rintro ⟨hplatform, hinstances, houtputs, hinputs, houtputNames, hinputShapes, houtputShapes⟩
    exact ⟨hplatform, hinstances, houtputs, hinputs, hinputShapes, houtputNames, houtputShapes⟩

/-- Validation accepts exactly the configurations that are well-formed and named after their
directory, or not named at all. It fills in the name and nothing else, and it accepts what it made
as it is. -/
theorem accepts_of_validate (config : Config) (directory : String) :
    ((∃ valid, config.validate directory = .ok valid) ↔
      (config.name = "" ∨ config.name = directory) ∧ config.platform ≠ "" ∧
        1 ≤ config.instances.toNat ∧ 1 ≤ config.outputs.length ∧
        config.inputs.Pairwise (fun a b ↦ a.name ≠ b.name) ∧
        config.outputs.Pairwise (fun a b ↦ a.name ≠ b.name) ∧
        (∀ input ∈ config.inputs, ∀ size ∈ input.shape, size = -1 ∨ 1 ≤ size) ∧
        ∀ output ∈ config.outputs, ∀ size ∈ output.shape, size = -1 ∨ 1 ≤ size) ∧
      ∀ valid, config.validate directory = .ok valid →
        valid = { config with name := directory } ∧ valid.validate directory = .ok valid := by
  rw [← wellFormed_iff, ← name_named_eq_iff]
  constructor
  · constructor
    · rintro ⟨valid, hvalid⟩
      obtain ⟨rfl, hname, hformed⟩ := validate_eq_ok_iff.1 hvalid
      refine ⟨hname, ?_⟩
      rw [named_eq hname] at hformed
      exact WellFormed.renamed.1 hformed
    · rintro ⟨hname, hformed⟩
      refine ⟨_, validate_eq_ok_iff.2 ⟨rfl, hname, ?_⟩⟩
      rw [named_eq hname]
      exact WellFormed.renamed.2 hformed
  · intro valid hvalid
    obtain ⟨rfl, hname, hformed⟩ := validate_eq_ok_iff.1 hvalid
    refine ⟨named_eq hname, ?_⟩
    have hself := hformed.validate_self
    rwa [hname] at hself

/-- An input and an output that share a name. -/
example :
    let pass (name : String) : Config := {
      name
      platform := "identity"
      maxBatch := 0
      inputs := [{ name := "x", type := .uint8, shape := [-1] }]
      outputs := [{ name := "x", type := .uint8, shape := [-1], labelFile := none }]
      policy := .all
      instances := 1 }
    (pass "").validate "pass" = .ok (pass "pass") := by rfl

end Config

end TensorInference.Model
