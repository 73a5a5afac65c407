import TensorInference.Proofs.Platform.Calls
import TensorInference.Proofs.Platform.Kernel

/-!
# Sizes that fit into words

A response multiplies the elements of a shape by the width of their type and then by the batch, and
only the count of the elements is checked: a product that is too large for a word wraps around, or
crashes the program where overflow is checked. Nothing in the response rules this out. A program
whose outputs have sizes that fit does the same in either case, and those of the standard platforms
have the very sizes that normalization checked for the inputs. All of these are positive, so cutting
a completed output into the items of its batch divides by the batch and makes pieces of one item.
-/

namespace TensorInference.Platform

open Model Inference Wire

/-! ## Arithmetic in words -/

/-- What becomes of a product of words that is too large for a word. -/
inductive Overflow where
  | wraps
  | crashes
  deriving DecidableEq, Repr

/-- The product of two words, unless the program crashes. -/
def Overflow.mul (overflow : Overflow) (a b : Nat) : Option Nat :=
  match overflow with
  | .wraps => some (a * b % UInt64.size)
  | .crashes => checkedMul a b

theorem Overflow.mul_of_lt {overflow : Overflow} {a b : Nat} (h : a * b < 2 ^ 64) :
    overflow.mul a b = some (a * b) := by
  cases overflow with
  | wraps => exact congrArg some (Nat.mod_eq_of_lt h)
  | crashes => exact Shape.checkedMul_eq_some.2 ⟨h, rfl⟩

/-- The bytes of a batch of tensors with so many elements each. -/
def Overflow.bytes (overflow : Overflow) (batch : UInt32) (type : ElementType) (count : Nat) :
    Option Nat :=
  (overflow.mul count type.width).bind fun item ↦ overflow.mul item batch.toNat

/-- Both products of the size of a shape fit into words. -/
structure FitsWords (batch : UInt32) (type : ElementType) (count : Nat) : Prop where
  item : count * type.width < 2 ^ 64
  total : count * type.width * batch.toNat < 2 ^ 64

theorem Overflow.bytes_of_fits {overflow : Overflow} {batch : UInt32} {type : ElementType}
    {count : Nat} (h : FitsWords batch type count) :
    overflow.bytes batch type count = some (count * type.width * batch.toNat) := by
  rw [bytes, mul_of_lt h.item, Option.bind_some, mul_of_lt h.total]

/-- Products that wrap around one after the other are the product that wraps around once. -/
theorem Overflow.bytes_wraps {batch : UInt32} {type : ElementType} {count : Nat} :
    wraps.bytes batch type count = some (count * type.width * batch.toNat % UInt64.size) :=
  congrArg some (Nat.mod_mul_mod ..)

/-- Store an output with the size computed in words, unless the program crashes. -/
def storeInWords (overflow : Overflow) (response : Response) (name : String) (shape : Shape)
    (data : Bytes) : Option (Except Status Response) :=
  match response.wanted.find? (·.name = name) with
  | none => some (.ok response)
  | some wanted =>
    match shape.elementCount with
    | none => some (.error (.internal (s!"output '{name}' has invalid dims " ++ shape.describe)))
    | some count =>
      (overflow.bytes response.header.batch wanted.type count).map fun expected ↦
        let size := data.length
        if size = expected then
          .ok { response with outputs := response.outputs.insert name { shape, data } }
        else .error (.internal s!"output '{name}' has {size} bytes, expected {expected}")

/-- Let a program work as `Program.advance` does, with sizes computed in words; none if it crashes
over one. -/
def Program.advanceInWords (overflow : Overflow) : Program → Response → Option (Response × Pause)
  | .finish outcome, response => some (response, .finished outcome)
  | .crash message, response => some (response, .crashed message)
  | .wait next, response => some (response, .waiting next)
  | .store name shape data next, response =>
    match storeInWords overflow response name shape data with
    | none => none
    | some (.ok stored) => (next (.ok ())).advanceInWords overflow stored
    | some (.error status) => (next (.error status)).advanceInWords overflow response

variable {overflow : Overflow} {response : Response} {name : String} {shape : Shape} {data : Bytes}

/-- Whether the size of a shape fits into words for every output that a name asks for. -/
def SizeFits (response : Response) (name : String) (shape : Shape) : Prop :=
  ∀ want ∈ response.wanted, want.name = name → ∀ count, shape.elementCount = some count →
    FitsWords response.header.batch want.type count

/-- A response computes sizes as a program does whose products wrap around. -/
theorem storeInWords_wraps :
    storeInWords .wraps response name shape data = some (response.store name shape data) := by
  unfold storeInWords Response.store Response.expectedBytes
  cases response.wanted.find? (·.name = name) with
  | none => rfl
  | some want =>
    cases shape.elementCount with
    | none => rfl
    | some count => simp only [Overflow.bytes_wraps, Option.map_some]

/-- It makes no difference to sizes that fit what becomes of the others. -/
theorem storeInWords_eq (h : SizeFits response name shape) :
    storeInWords overflow response name shape data = some (response.store name shape data) := by
  rw [← storeInWords_wraps]
  unfold storeInWords
  cases hfind : response.wanted.find? (·.name = name) with
  | none => rfl
  | some want =>
    cases hcount : shape.elementCount with
    | none => rfl
    | some count =>
      have hfits : FitsWords response.header.batch want.type count :=
        h want (List.mem_of_find?_eq_some hfind) (by simpa using List.find?_some hfind) count hcount
      simp only [Overflow.bytes_of_fits hfits]

/-- A program all of whose calls have sizes that fit does the same in words. -/
theorem Program.advanceInWords_eq {program : Program}
    (h : ∀ call ∈ (program.record response).1, SizeFits response call.name call.tensor.shape) :
    program.advanceInWords overflow response = some (program.advance response) := by
  induction program generalizing response with
  | finish outcome => rfl
  | crash message => rfl
  | wait next _ => rfl
  | store name shape data next ih =>
    rw [record] at h
    cases hstore : response.store name shape data with
    | ok stored =>
      rw [hstore, Prod.map_fst, List.forall_mem_cons] at h
      have hwords := @storeInWords_eq overflow response name shape data h.1
      rw [advanceInWords, advance, hwords, hstore]
      -- Keeping an output changes neither the batch nor what is wanted.
      obtain rfl : stored = response.keep name ⟨shape, data⟩ := Response.eq_keep_of_store hstore
      apply ih
      intro call hcall
      have hfits := h.2 call hcall
      rwa [SizeFits, Response.keep_wanted, Response.keep_header]
    | error status =>
      rw [hstore, Prod.map_fst, List.forall_mem_cons] at h
      have hwords := @storeInWords_eq overflow response name shape data h.1
      rw [advanceInWords, advance, hwords, hstore]
      exact ih _ h.2

/-- A tensor whose elements can be counted and whose data have the exact size, which is positive and
fits into words at every step. -/
structure ExactlySized (batch : UInt32) (type : ElementType) (tensor : OutputTensor) : Prop where
  counted : tensor.shape.elementCount = some tensor.shape.volume
  volume_pos : 0 < tensor.shape.volume
  batch_pos : 0 < batch.toNat
  fits : FitsWords batch type tensor.shape.volume
  length : tensor.data.length = tensor.shape.volume * type.width * batch.toNat

variable {batch : UInt32} {type : ElementType} {tensor : OutputTensor}

theorem exactlySized_of_expected (hbatch : 0 < batch.toNat) (hvolume : 0 < tensor.shape.volume)
    (hexpected : Response.expectedBytes batch type tensor.shape = some tensor.data.length)
    (hexact : tensor.data.length = exactBytes batch type tensor.shape)
    (hlt : tensor.data.length < 2 ^ 64) : ExactlySized batch type tensor := by
  obtain ⟨count, hcount, -⟩ := Option.map_eq_some_iff.1 hexpected
  obtain rfl := Shape.eq_of_elementCount hcount
  have hlength := hexact.trans (exactBytes_eq ..)
  refine ⟨hcount, hvolume, hbatch, ⟨?_, hlength ▸ hlt⟩, hlength⟩
  calc
    tensor.shape.volume * type.width
        ≤ tensor.shape.volume * type.width * batch.toNat := Nat.le_mul_of_pos_right _ hbatch
    _ = tensor.data.length := hlength.symm
    _ < 2 ^ 64 := hlt

theorem ExactlySized.sizeFits (h : ExactlySized response.header.batch type tensor)
    (htype : ∀ want ∈ response.wanted, want.name = name → want.type = type) :
    SizeFits response name tensor.shape := by
  intro want hwant hname count hcount
  obtain rfl := Option.some.inj (h.counted.symm.trans hcount)
  rw [htype want hwant hname]
  exact h.fits

/-- The elements divided by the batch are those of one item. -/
theorem ExactlySized.read_div (h : ExactlySized batch type tensor) :
    (Tensor.read type.width tensor.data).length / batch.toNat = tensor.shape.volume := by
  rw [Tensor.length_read, h.length, Nat.mul_right_comm, Nat.mul_div_cancel _ type.width_pos,
    Nat.mul_div_cancel _ h.batch_pos]

/-! ## Sizes of the standard platforms -/

theorem Program.record_storing {next : Program} (h : response.Accepts name tensor) :
    (storing name tensor.shape tensor.data next).record response =
      ((next.record (response.keep name tensor)).map (⟨name, tensor, .ok ()⟩ :: ·) id) := by
  rw [storing, record, Response.store_of_accepts h]

/-- If all outputs are accepted, the record has them in their order. -/
theorem Program.record_storingAll {tensors : List (String × OutputTensor)}
    (h : ∀ stored ∈ tensors, response.Accepts stored.1 stored.2) :
    (storingAll tensors).record response =
      (tensors.map fun stored ↦ ⟨stored.1, stored.2, .ok ()⟩, .returned (.ok ())) := by
  induction tensors generalizing response with
  | nil => rfl
  | cons stored rest ih =>
    rw [List.forall_mem_cons] at h
    have hrest : ∀ other ∈ rest, (response.keep stored.1 stored.2).Accepts other.1 other.2 :=
      fun other hother ↦ Response.accepts_keep.2 (h.2 other hother)
    rw [storingAll, record_storing h.1, ih hrest]
    rfl

namespace Kernel

variable {kernel : Kernel} {config : Config} {executor : Executor}
  {tensor : Input → InputTensor}

/-- The calls of a kernel's program are its results, if the response accepts them. -/
theorem record_program (haccepts : kernel.Agrees tensor → ∀ stored ∈ kernel.results tensor,
      response.Accepts stored.1 stored.2) :
    ∀ call ∈ ((kernel.program tensor).record response).1, kernel.Agrees tensor ∧
      ∃ formula ∈ kernel.formulas, call = ⟨formula.output.name, formula.apply tensor, .ok ()⟩ := by
  intro call hcall
  unfold program at hcall
  split at hcall
  · rename_i hagrees
    rw [Program.record_storingAll (haccepts hagrees), results, List.map_map] at hcall
    obtain ⟨formula, hformula, rfl⟩ := List.mem_map.1 hcall
    exact ⟨hagrees, formula, hformula, rfl⟩
  · rw [Program.record] at hcall
    cases hcall

/-- Whether the inputs of a model have positive sizes that fit into words. -/
structure Sized (batch : UInt32) (config : Config) (tensor : Input → InputTensor) : Prop where
  batch_pos : 0 < batch.toNat
  fills : ∀ described ∈ config.inputs, Inference.Fills batch described (tensor described)
  bounded : ∀ described ∈ config.inputs, (tensor described).data.length < 2 ^ 64

/-- The results of a kernel have the sizes of the inputs. -/
theorem Computes.exactlySized (h : kernel.Computes config executor)
    (hsized : Sized batch config tensor) (hagrees : kernel.Agrees tensor) {formula : Formula}
    (hformula : formula ∈ kernel.formulas) :
    ExactlySized batch formula.output.type (formula.apply tensor) := by
  have hfits := h.fits formula hformula
  have hleft := hsized.fills _ hfits.left
  have hlength := hfits.length_apply hleft (hsized.fills _ hfits.right) (hagrees formula hformula)
  apply exactlySized_of_expected hsized.batch_pos hleft.volume_pos
  · rw [hlength, ← hfits.left_type]
    exact hleft.expected
  · rw [hlength, ← hfits.left_type]
    exact hleft.length
  · rw [hlength]
    exact hsized.bounded _ hfits.left

variable {header : RequestHeader} {version : UInt64} {labels : Labels}

/-- Every call of a kernel's program is accepted and has the exact size of an output of the
model. -/
theorem Computes.calls (h : kernel.Computes config executor) (hconfig : config.WellFormed)
    (hdistinct : (header.outputs.map (·.name)).Nodup)
    (hcreate : Response.create header config version labels = .ok response)
    (hsized : Sized header.batch config tensor) :
    ∀ call ∈ ((kernel.program tensor).record response).1, call.result = .ok () ∧
      ∃ described ∈ config.outputs, call.name = described.name ∧
        ExactlySized header.batch described.type call.tensor := by
  intro call hcall
  have haccepts := h.accepts hconfig hdistinct hcreate hsized.fills
  obtain ⟨hagrees, formula, hformula, rfl⟩ := record_program haccepts call hcall
  exact ⟨rfl, formula.output, h.output_mem hformula, rfl, h.exactlySized hsized hagrees hformula⟩

/-- After the work of a kernel everything that is wanted is there in its exact size. -/
theorem Computes.stored (h : kernel.Computes config executor) (hconfig : config.WellFormed)
    (hdistinct : (header.outputs.map (·.name)).Nodup)
    (hcreate : Response.create header config version labels = .ok response)
    (hsized : Sized header.batch config tensor) (hagrees : kernel.Agrees tensor) :
    ∀ want ∈ response.wanted, ∃ stored,
      (response.keepAll (kernel.results tensor)).outputs.get? want.name = some stored ∧
        ExactlySized header.batch want.type stored := by
  obtain ⟨-, hwants⟩ := Response.wants_of_create hconfig hdistinct hcreate
  have hnames : ((kernel.results tensor).map (·.1)).Nodup := h.names ▸ hconfig.outputs_distinct
  intro want hwant
  obtain ⟨formula, hformula, hname, htype⟩ := h.exists_formula hconfig hwants hwant
  have hresult : (want.name, formula.apply tensor) ∈ kernel.results tensor :=
    hname ▸ mem_results hformula
  have hrequires := Response.requires_iff.2 (List.mem_map_of_mem hwant)
  refine ⟨_, Response.get?_keepAll_of_mem hnames hresult hrequires, ?_⟩
  rw [← htype]
  exact h.exactlySized hsized hagrees hformula

/-- The inputs of an assembled request are sized. -/
theorem sized_of_assemble {submission : Submission} {normal : RequestHeader} {request : Request}
    (hconfig : config.WellFormed) (hnormal : normalized config submission.header = .ok normal)
    (hassemble : Request.assemble submission.model version normal config submission.data =
      .ok request)
    (hacceptable : Acceptable config submission.header submission.data) :
    Sized normal.batch config submission.tensor := by
  rw [batch_of_normalized hnormal]
  refine ⟨hacceptable.batch_pos, fun _ ↦ fills_of_acceptable hconfig hacceptable, ?_⟩
  intro described hdescribed
  obtain ⟨_, pieces, hassembled⟩ :=
    Request.exists_assembled hconfig hnormal hassemble hdescribed
  rw [Submission.tensor, InputData.joined_of_get? hassembled.provided]
  exact hassembled.length_lt

end Kernel

/-- The sizes of the standard platforms are exact: every output that an executor stores is accepted
and has a size that fits into words at every step, so an execution in words is the exact one. What
it leaves can be completed, and each wanted tensor has the elements of one item, at least one, for
every item of the batch. -/
theorem Registry.standard_exactlySized {declared config : Config} {directory model : String}
    {path : Files.Path} {executor : Executor} {header normal : RequestHeader}
    {version served : UInt64} {data : InputData} {request : Request} {labels : Labels}
    {response : Response} (hvalid : declared.validate directory = .ok config)
    (hexecutor : standard.create config path = .ok executor)
    (hnormal : normalized config header = .ok normal)
    (hassemble : Request.assemble model version normal config data = .ok request)
    (hresponse : Response.create normal config served labels = .ok response) :
    (∀ call ∈ ((executor request).record response).1, call.result = .ok () ∧
      ∃ described ∈ config.outputs, call.name = described.name ∧
        ExactlySized normal.batch described.type call.tensor) ∧
    (∀ overflow, (executor request).advanceInWords overflow response =
      some ((executor request).advance response)) ∧
    ∀ stored, (executor request).advance response = (stored, .finished (.ok ())) →
      (∃ final, stored.finalize = .ok final) ∧
      ∀ want ∈ stored.wanted, ∃ tensor, stored.outputs.get? want.name = some tensor ∧
        ExactlySized stored.header.batch want.type tensor ∧
        (Tensor.read want.type.width tensor.data).length / stored.header.batch.toNat =
          tensor.shape.volume := by
  have hconfig := Config.wellFormed_of_validate hvalid
  obtain ⟨-, hdistinct⟩ := outputs_of_normalized hnormal
  obtain ⟨-, hwants⟩ := Response.wants_of_create hconfig hdistinct hresponse
  have hbatch := Response.batch_of_create hresponse
  obtain ⟨kernel, hkernel, hprogram⟩ := exists_kernel_program hexecutor
  let submission : Submission := { model, selector := Submission.latest, header, data }
  have hacceptable := acceptable_of_stages hconfig hnormal hassemble hresponse
  have hsized := @Kernel.sized_of_assemble config version submission normal request hconfig hnormal
    hassemble hacceptable
  rw [hprogram request submission.tensor fun _ hdescribed ↦
    @input_of_assemble config normal _ submission _ _ _ hconfig hnormal hassemble hdescribed]
  have hcalls := hkernel.calls hconfig hdistinct hresponse hsized
  have haccepts := hkernel.accepts hconfig hdistinct hresponse hsized.fills
  refine ⟨hcalls, fun overflow ↦ ?_, fun stored hstored ↦ ?_⟩
  · apply Program.advanceInWords_eq
    intro call hcall
    obtain ⟨-, described, hdescribed, hname, hexact⟩ := hcalls call hcall
    apply (hbatch ▸ hexact).sizeFits
    intro want hwant heq
    exact hwants.type_eq hconfig hdescribed hwant (heq.trans hname)
  · rw [Kernel.advance_program haccepts, Kernel.run] at hstored
    split at hstored
    · rename_i hagrees
      obtain ⟨rfl, -⟩ := Prod.mk.inj hstored
      have hall := hkernel.stored hconfig hdistinct hresponse hsized hagrees
      rw [Response.keepAll_wanted, Response.keepAll_header, hbatch]
      refine ⟨?_, fun want hwant ↦ ?_⟩
      · apply Response.exists_finalize
        rw [Response.keepAll_wanted]
        exact fun want hwant ↦ (hall want hwant).imp fun _ ↦ And.left
      · obtain ⟨tensor, htensor, hexact⟩ := hall want hwant
        exact ⟨tensor, htensor, hexact, hexact.read_div⟩
    · -- A refusal is not a successful end.
      cases hstored

/-- A batch of two items that a model copies. -/
theorem Registry.standard_exactlySized_echo :
    ∃ executor normal request response stored final tensor,
      standard.create Identity.echo "" = .ok executor ∧
      normalized Identity.echo Identity.echoHeader = .ok normal ∧
      Request.assemble "echo" 1 normal Identity.echo
        (InputData.ofPieces [("in", [1]), ("in", [2, 3, 4])]) = .ok request ∧
      Response.create normal Identity.echo 1 .empty = .ok response ∧
      (executor request).advance response = (stored, .finished (.ok ())) ∧
      (executor request).advanceInWords .crashes response = some (stored, .finished (.ok ())) ∧
      stored.finalize = .ok final ∧ stored.outputs.get? "out" = some tensor ∧
      ExactlySized 2 .int16 tensor := by
  have hvalid : Identity.echo.validate "echo" = .ok Identity.echo := by rfl
  obtain ⟨-, hwords, hfinished⟩ := @Registry.standard_exactlySized Identity.echo Identity.echo
    "echo" "echo" "" _ Identity.echoHeader _ 1 1
    (InputData.ofPieces [("in", [1]), ("in", [2, 3, 4])]) _ .empty _ hvalid
    (by rfl) (by rfl) (by rfl) (by rfl)
  obtain ⟨⟨final, hfinal⟩, hwanted⟩ := hfinished _ (by rfl)
  obtain ⟨tensor, htensor, hexact, -⟩ := hwanted _ (List.mem_singleton_self _)
  exact ⟨_, _, _, _, _, final, tensor, rfl, rfl, rfl, rfl, rfl, hwords .crashes, hfinal, htensor,
    hexact⟩

end TensorInference.Platform
