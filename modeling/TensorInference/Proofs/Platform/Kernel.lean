import TensorInference.Platform.Registry
import TensorInference.Proofs.Inference.Given
import TensorInference.Proofs.Platform.AddSub
import TensorInference.Proofs.Platform.Identity

/-!
# What the standard platforms compute

Both platforms compute each output of a model from two of its inputs, which may be the same one, and
give it their shape. A kernel lists these formulas. What it computes depends on the given tensors
alone: if some formula has inputs of different shapes the kernel refuses before anything is stored,
and otherwise it stores the results of all formulas, whatever the response makes of them. Formulas
work block by block, so the results of a batch are the results of its items one after the other.
-/

namespace TensorInference.Platform

open Model Inference Wire

/-- An operation on the bytes of tensors whose elements have a width: it keeps the size, and what
stands in front is combined by itself. -/
structure Blockwise (width : Nat) (combine : Bytes → Bytes → Bytes) : Prop where
  length : ∀ {count x y}, x.length = count * width → y.length = count * width →
    (combine x y).length = count * width
  append : ∀ {count x y more rest}, x.length = count * width → y.length = count * width →
    combine (x ++ more) (y ++ rest) = combine x y ++ combine more rest

namespace Blockwise

variable {width : Nat} {combine : Bytes → Bytes → Bytes}

theorem fst : Blockwise width fun x _ ↦ x :=
  ⟨fun hx _ ↦ hx, fun _ _ ↦ rfl⟩

theorem addSub {type : ElementType} {operation : ElementType → Nat → Nat → Nat} :
    Blockwise type.width (AddSub.combine type operation) :=
  ⟨AddSub.length_combine, AddSub.combine_append⟩

theorem nil (h : Blockwise width combine) : combine [] [] = [] := by
  apply List.length_eq_zero_iff.1
  have hlength := @h.length 0 [] []
  simpa using hlength

/-- A batch is combined item by item. -/
theorem combine_eq_flatMap (h : Blockwise width combine) {batch volume : Nat} {x y : Bytes}
    (hx : x.length = batch * (volume * width)) (hy : y.length = batch * (volume * width)) :
    combine x y = (List.range batch).flatMap fun k ↦
      combine (Tensor.block (volume * width) x k) (Tensor.block (volume * width) y k) := by
  suffices hgroups : combine x y = (List.zipWith combine (Tensor.groups (volume * width) batch x)
      (Tensor.groups (volume * width) batch y)).flatten by
    rw [hgroups, Tensor.groups_eq_map, Tensor.groups_eq_map, List.zipWith_map, List.zipWith_self,
      List.flatMap_def]
  induction batch generalizing x y with
  | zero =>
    obtain rfl : x = [] := List.length_eq_zero_iff.1 (by rw [hx, Nat.zero_mul])
    obtain rfl : y = [] := List.length_eq_zero_iff.1 (by rw [hy, Nat.zero_mul])
    exact h.nil
  | succ batch ih =>
    -- The first item stands in front of the rest of the batch.
    have happend := @h.append volume _ _ (x.drop (volume * width)) (y.drop (volume * width))
      (Tensor.length_take_block hx) (Tensor.length_take_block hy)
    rw [List.take_append_drop, List.take_append_drop,
      ih (Tensor.length_drop_block hx) (Tensor.length_drop_block hy)] at happend
    rw [happend, Tensor.groups, Tensor.groups, List.zipWith_cons_cons, List.flatten_cons]

end Blockwise

/-- How an output of a model is computed from two inputs, which may be the same one. -/
structure Formula where
  output : Output
  left : Input
  right : Input
  combine : Bytes → Bytes → Bytes

namespace Formula

/-- What a formula computes from given tensors. -/
def apply (formula : Formula) (tensor : Input → InputTensor) : OutputTensor where
  shape := (tensor formula.left).shape
  data := formula.combine (tensor formula.left).data (tensor formula.right).data

/-- Whether a formula computes on inputs of a model, of the type of its output. -/
structure Fits (formula : Formula) (config : Config) : Prop where
  left : formula.left ∈ config.inputs
  right : formula.right ∈ config.inputs
  left_type : formula.left.type = formula.output.type
  right_type : formula.right.type = formula.output.type
  blockwise : Blockwise formula.output.type.width formula.combine

variable {formula : Formula} {config : Config} {batch : UInt32} {tensor : Input → InputTensor}

/-- The result of tensors that fill one shape fills it as well. -/
theorem Fits.length_apply (h : formula.Fits config)
    (hleft : Inference.Fills batch formula.left (tensor formula.left))
    (hright : Inference.Fills batch formula.right (tensor formula.right))
    (hshape : (tensor formula.left).shape = (tensor formula.right).shape) :
    (formula.apply tensor).data.length = (tensor formula.left).data.length := by
  have hx := hleft.length
  have hy := hright.length
  rw [h.left_type, exactBytes] at hx
  rw [h.right_type, exactBytes, ← hshape] at hy
  rw [apply, h.blockwise.length hx hy, hx]

end Formula

/-- What a platform computes for a model. -/
structure Kernel where
  /-- One formula for every output, in their order. -/
  formulas : List Formula
  /-- How inputs of different shapes are refused. -/
  refusal : Status

namespace Kernel

/-- Whether the inputs of every formula have one shape. -/
def Agrees (kernel : Kernel) (tensor : Input → InputTensor) : Prop :=
  ∀ formula ∈ kernel.formulas, (tensor formula.left).shape = (tensor formula.right).shape

instance (kernel : Kernel) (tensor : Input → InputTensor) : Decidable (kernel.Agrees tensor) :=
  inferInstanceAs (Decidable (∀ formula ∈ kernel.formulas,
    (tensor formula.left).shape = (tensor formula.right).shape))

/-- The results of all formulas, by the names of the outputs. -/
def results (kernel : Kernel) (tensor : Input → InputTensor) : List (String × OutputTensor) :=
  kernel.formulas.map fun formula ↦ (formula.output.name, formula.apply tensor)

/-- Work on a response. -/
def run (kernel : Kernel) (tensor : Input → InputTensor) (response : Response) :
    Response × Except Status Unit :=
  if kernel.Agrees tensor then (response.keepAll (kernel.results tensor), .ok ())
  else (response, .error kernel.refusal)

/-- Store the results, or refuse. -/
def program (kernel : Kernel) (tensor : Input → InputTensor) : Program :=
  if kernel.Agrees tensor then .storingAll (kernel.results tensor)
  else .finish (.error kernel.refusal)

theorem advance_program {kernel : Kernel} {tensor : Input → InputTensor} {response : Response}
    (haccepts : kernel.Agrees tensor → ∀ stored ∈ kernel.results tensor,
      response.Accepts stored.1 stored.2) :
    (kernel.program tensor).advance response =
      ((kernel.run tensor response).1, .finished (kernel.run tensor response).2) := by
  unfold program run
  split
  · rename_i hagrees
    exact Program.advance_storingAll (haccepts hagrees)
  · rw [Program.advance]

/-- Whether an executor does what a kernel says, for requests with given tensors and responses that
accept the results. -/
structure Computes (kernel : Kernel) (config : Config) (executor : Executor) : Prop where
  outputs : kernel.formulas.map (·.output) = config.outputs
  fits : ∀ formula ∈ kernel.formulas, formula.Fits config
  advance : ∀ {request : Request} {tensor : Input → InputTensor} {response : Response},
    (∀ described ∈ config.inputs, request.input described.name = .ok (tensor described)) →
    (kernel.Agrees tensor → ∀ stored ∈ kernel.results tensor,
      response.Accepts stored.1 stored.2) →
    (executor request).advance response =
      ((kernel.run tensor response).1, .finished (kernel.run tensor response).2)

variable {kernel : Kernel} {config : Config} {executor : Executor} {tensor : Input → InputTensor}

theorem Computes.names (h : kernel.Computes config executor) :
    (kernel.results tensor).map (·.1) = config.outputs.map (·.name) := by
  rw [← h.outputs, results, List.map_map, List.map_map]
  rfl

theorem mem_results {formula : Formula} (h : formula ∈ kernel.formulas) :
    (formula.output.name, formula.apply tensor) ∈ kernel.results tensor :=
  List.mem_map_of_mem h

theorem Computes.output_mem (h : kernel.Computes config executor) {formula : Formula}
    (hformula : formula ∈ kernel.formulas) : formula.output ∈ config.outputs :=
  h.outputs ▸ List.mem_map_of_mem hformula

/-- What is wanted is computed by a formula of its name and type. -/
theorem Computes.exists_formula (h : kernel.Computes config executor) (hconfig : config.WellFormed)
    {header : RequestHeader} {wanted : List WantedOutput}
    (hwants : Response.Wants config header wanted) {want : WantedOutput} (hwant : want ∈ wanted) :
    ∃ formula ∈ kernel.formulas,
      formula.output.name = want.name ∧ formula.output.type = want.type := by
  obtain ⟨described, hfind, htype⟩ := hwants.type want hwant
  obtain ⟨hdescribed, hname⟩ := hconfig.findOutput_eq_some_iff.1 hfind
  rw [← h.outputs] at hdescribed
  obtain ⟨formula, hformula, rfl⟩ := List.mem_map.1 hdescribed
  exact ⟨formula, hformula, hname, htype.symm⟩

/-- Only the tensors of the model's inputs matter. -/
theorem Computes.run_congr (h : kernel.Computes config executor) {other : Input → InputTensor}
    (hsame : ∀ described ∈ config.inputs, other described = tensor described) :
    kernel.run other = kernel.run tensor := by
  have hagrees : kernel.Agrees other ↔ kernel.Agrees tensor := by
    refine forall₂_congr fun formula hformula ↦ ?_
    have hfits := h.fits formula hformula
    rw [hsame _ hfits.left, hsame _ hfits.right]
  have hresults : kernel.results other = kernel.results tensor := by
    refine List.map_congr_left fun formula hformula ↦ ?_
    have hfits := h.fits formula hformula
    rw [Formula.apply, Formula.apply, hsame _ hfits.left, hsame _ hfits.right]
  funext response
  simp only [run, hagrees, hresults]

/-- A created response accepts the results of tensors that fill their shapes. -/
theorem Computes.accepts (h : kernel.Computes config executor) {header : RequestHeader}
    {version : UInt64} {labels : Labels} {response : Response} (hconfig : config.WellFormed)
    (hdistinct : (header.outputs.map (·.name)).Nodup)
    (hcreate : Response.create header config version labels = .ok response)
    (hfills : ∀ described ∈ config.inputs,
      Inference.Fills header.batch described (tensor described))
    (hagrees : kernel.Agrees tensor) :
    ∀ stored ∈ kernel.results tensor, response.Accepts stored.1 stored.2 := by
  intro stored hstored
  obtain ⟨formula, hformula, rfl⟩ := List.mem_map.1 hstored
  have hfits := h.fits formula hformula
  have hleft := hfills _ hfits.left
  apply Response.accepts_of_create hconfig hdistinct hcreate (h.output_mem hformula)
  rw [hfits.length_apply hleft (hfills _ hfits.right) (hagrees formula hformula),
    ← hleft.expected, hfits.left_type]
  rfl

end Kernel

variable {config : Config} {executor : Executor}

/-- The copies of inputs to outputs. A copy has one input, so its shapes never differ and nothing is
refused. -/
def Identity.kernel (config : Config) : Kernel where
  formulas := (config.inputs.zip config.outputs).map fun described ↦
    { output := described.2, left := described.1, right := described.1, combine := fun x _ ↦ x }
  refusal := .invalidArg ""

/-- A model of the identity platform copies the given tensors. -/
theorem Identity.executor_eq (h : Identity.create config = .ok executor) {request : Request}
    {tensor : Input → InputTensor}
    (hinput : ∀ described ∈ config.inputs, request.input described.name = .ok (tensor described)) :
    executor request = (kernel config).program tensor := by
  obtain ⟨names, hnames, hexecutor⟩ := Outcome.bind_eq_ok_iff.1 h
  obtain rfl := Except.ok.inj hexecutor
  obtain ⟨-, -, rfl⟩ := pairs_eq_ok_iff.1 hnames
  have hagrees : (kernel config).Agrees tensor := by
    rw [Kernel.Agrees, kernel, List.forall_mem_map]
    exact fun _ _ ↦ rfl
  rw [Kernel.program, if_pos hagrees]
  apply program_eq_storingAll
  rw [Kernel.results, kernel, List.map_map, List.forall₂_map_left_iff,
    List.forall₂_map_right_iff, List.forall₂_same]
  intro described hdescribed
  exact ⟨rfl, _, hinput _ (List.of_mem_zip hdescribed).1, rfl⟩

theorem Identity.computes_kernel (h : Identity.create config = .ok executor) :
    (kernel config).Computes config executor := by
  obtain ⟨names, hnames, -⟩ := Outcome.bind_eq_ok_iff.1 h
  obtain ⟨hlength, htypes, -⟩ := pairs_eq_ok_iff.1 hnames
  refine ⟨?_, ?_, ?_⟩
  · rw [kernel, List.map_map]
    exact List.map_snd_zip (Nat.le_of_eq hlength.symm)
  · rw [kernel, List.forall_mem_map]
    intro described hdescribed
    have hinput : described.1 ∈ config.inputs := (List.of_mem_zip hdescribed).1
    exact ⟨hinput, hinput, htypes _ hdescribed, htypes _ hdescribed, Blockwise.fst⟩
  · intro request tensor response hinput haccepts
    rw [executor_eq h hinput, Kernel.advance_program haccepts]

/-- The sum and the difference of two inputs. -/
def AddSub.kernel (first second : Input) (sum difference : Output) : Kernel where
  formulas := [
    { output := sum, left := first, right := second, combine := combine first.type Tensor.add },
    { output := difference, left := first, right := second,
      combine := combine first.type Tensor.sub }]
  refusal := refusal (described first second sum difference)

theorem AddSub.agrees_kernel_iff {first second : Input} {sum difference : Output}
    {tensor : Input → InputTensor} : (kernel first second sum difference).Agrees tensor ↔
      (tensor first).shape = (tensor second).shape := by
  rw [Kernel.Agrees, kernel, List.forall_mem_cons, List.forall_mem_singleton, and_self]

/-- A model of the add_sub platform adds and subtracts the given tensors. -/
theorem AddSub.program_eq {first second : Input} {sum difference : Output}
    (hfits : Fits config first second sum difference) {request : Request}
    {tensor : Input → InputTensor}
    (hinput : ∀ described ∈ config.inputs, request.input described.name = .ok (tensor described)) :
    program (described first second sum difference) request =
      (kernel first second sum difference).program tensor := by
  rw [hfits.inputs, List.forall_mem_cons, List.forall_mem_singleton] at hinput
  by_cases hagrees : (kernel first second sum difference).Agrees tensor
  · rw [Kernel.program, if_pos hagrees]
    exact program_of_eq hinput.1 hinput.2 (agrees_kernel_iff.1 hagrees)
  · rw [Kernel.program, if_neg hagrees]
    exact program_of_ne hinput.1 hinput.2 fun hshape ↦ hagrees (agrees_kernel_iff.2 hshape)

theorem AddSub.computes_kernel {first second : Input} {sum difference : Output}
    (hfits : Fits config first second sum difference) :
    (kernel first second sum difference).Computes config
      (program (described first second sum difference)) := by
  have hfirst : first ∈ config.inputs := by
    rw [hfits.inputs]
    exact List.mem_cons_self
  have hsecond : second ∈ config.inputs := by
    rw [hfits.inputs]
    exact List.mem_cons_of_mem _ List.mem_cons_self
  have hformula : ∀ output : Output, output.type = first.type → ∀ operation,
      Formula.Fits ⟨output, first, second, combine first.type operation⟩ config :=
    fun output htype operation ↦
      ⟨hfirst, hsecond, htype.symm, hfits.second.trans htype.symm, htype ▸ Blockwise.addSub⟩
  refine ⟨hfits.outputs.symm, ?_, ?_⟩
  · rw [kernel, List.forall_mem_cons, List.forall_mem_singleton]
    exact ⟨hformula sum hfits.sum Tensor.add, hformula difference hfits.difference Tensor.sub⟩
  · intro request tensor response hinput haccepts
    rw [program_eq hfits hinput, Kernel.advance_program haccepts]

/-- What the server can execute by itself is what one of the two platforms makes. -/
theorem Registry.create_standard {directory : Files.Path}
    (h : standard.create config directory = .ok executor) :
    Identity.create config = .ok executor ∨ AddSub.create config = .ok executor := by
  unfold create at h
  rw [standard, register, register, OrderedMap.get?_insert, OrderedMap.get?_insert] at h
  split at h
  · rename_i factory hfactory
    split at hfactory
    · obtain rfl := Option.some.inj hfactory
      exact .inr h
    · split at hfactory
      · obtain rfl := Option.some.inj hfactory
        exact .inl h
      · cases hfactory
  · cases h

/-- The executor of a standard platform does with the given tensors what a kernel says. -/
theorem exists_kernel_program {directory : Files.Path}
    (h : Registry.standard.create config directory = .ok executor) :
    ∃ kernel : Kernel, kernel.Computes config executor ∧
      ∀ (request : Request) (tensor : Input → InputTensor),
        (∀ described ∈ config.inputs, request.input described.name = .ok (tensor described)) →
          executor request = kernel.program tensor := by
  rcases Registry.create_standard h with h | h
  · exact ⟨_, Identity.computes_kernel h, fun _ _ ↦ Identity.executor_eq h⟩
  · obtain ⟨names, hnames, hexecutor⟩ := Outcome.bind_eq_ok_iff.1 h
    obtain rfl := Except.ok.inj hexecutor
    obtain ⟨first, second, sum, difference, hfits, rfl⟩ := AddSub.fits_of_tensors hnames
    exact ⟨_, AddSub.computes_kernel hfits, fun _ _ ↦ AddSub.program_eq hfits⟩

theorem exists_kernel {directory : Files.Path}
    (h : Registry.standard.create config directory = .ok executor) :
    ∃ kernel : Kernel, kernel.Computes config executor := by
  obtain ⟨kernel, hkernel, -⟩ := exists_kernel_program h
  exact ⟨kernel, hkernel⟩

end TensorInference.Platform
