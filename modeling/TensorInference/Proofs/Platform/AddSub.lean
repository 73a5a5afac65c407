import TensorInference.Platform.AddSub
import TensorInference.Proofs.Inference.Assembly
import TensorInference.Proofs.Platform.Program
import TensorInference.Proofs.Tensor.Elements

/-!
# The add_sub platform adds and subtracts

For a valid model that the platform takes, a normal header, assembled data and a created response,
an execution fails exactly when the settled shapes of the two inputs differ. Otherwise the outputs
that were asked for hold the sums and the differences of the elements at all positions of the
batch: exact up to the modulus of the type for integers, rounded by the format for floating-point
numbers.
-/

namespace TensorInference.Platform.AddSub

open Model Inference Wire

variable {config : Config}

theorem checkTypes_eq_ok_iff {model : String} {type : ElementType}
    {tensors : List (String × ElementType)} :
    checkTypes model type tensors = .ok () ↔ ∀ tensor ∈ tensors, tensor.2 = type := by
  induction tensors with
  | nil => simp [checkTypes]
  | cons tensor rest ih =>
    rw [checkTypes, List.forall_mem_cons]
    split
    · rename_i htype
      rw [ih]
      exact ⟨fun hrest ↦ ⟨htype, hrest⟩, And.right⟩
    · rename_i htype
      exact ⟨fun h ↦ by simp at h, fun h ↦ absurd h.1 htype⟩

/-- A model with two inputs and two outputs, all of one numeric type. -/
structure Fits (config : Config) (a b : Input) (s d : Output) : Prop where
  inputs : config.inputs = [a, b]
  outputs : config.outputs = [s, d]
  second : b.type = a.type
  sum : s.type = a.type
  difference : d.type = a.type
  numeric : a.type ≠ .bool

/-- The tensors of such a model. -/
def described (a b : Input) (s d : Output) : Tensors where
  type := a.type
  first := a.name
  second := b.name
  sum := s.name
  difference := d.name

theorem fits_of_tensors {tensors : Tensors} (h : AddSub.tensors config = .ok tensors) :
    ∃ a b s d, Fits config a b s d ∧ tensors = described a b s d := by
  unfold AddSub.tensors at h
  dsimp only at h
  split at h
  · rename_i a b s d hinputs houtputs
    obtain ⟨_, htypes, h⟩ := Outcome.bind_eq_ok_iff.1 h
    split at h
    · simp at h
    · rename_i hnumeric
      have hall := checkTypes_eq_ok_iff.1 htypes
      simp only [List.forall_mem_cons] at hall
      obtain ⟨-, hsecond, hsum, hdifference, -⟩ := hall
      exact ⟨a, b, s, d, ⟨hinputs, houtputs, hsecond, hsum, hdifference, hnumeric⟩,
        (Except.ok.inj h).symm⟩
  · simp at h

variable {type : ElementType} {operation : ElementType → Nat → Nat → Nat} {count : Nat}
  {x y : Bytes}

theorem length_combine (hx : x.length = count * type.width) (hy : y.length = count * type.width) :
    (combine type operation x y).length = count * type.width := by
  rw [combine, Tensor.length_write, List.length_zipWith, Tensor.length_read, Tensor.length_read,
    hx, hy, Nat.min_self, Nat.mul_div_cancel _ type.width_pos]

/-- Elements in front are combined by themselves. -/
theorem combine_append {more rest : Bytes} (hx : x.length = count * type.width)
    (hy : y.length = count * type.width) :
    combine type operation (x ++ more) (y ++ rest) =
      combine type operation x y ++ combine type operation more rest := by
  have hlength : (Tensor.read type.width x).length = (Tensor.read type.width y).length := by
    rw [Tensor.length_read, Tensor.length_read, hx, hy]
  rw [combine, Tensor.read_append type.width_pos hx, Tensor.read_append type.width_pos hy,
    List.zipWith_append hlength, Tensor.write_append, combine, combine]

/-- No element is lost, and each is made of the two at its own position. -/
theorem element_combine (hrange : ∀ a b, operation type a b < Tensor.modulus type)
    (hx : x.length = count * type.width) (hy : y.length = count * type.width) {k : Nat}
    (hk : k < count) :
    Tensor.element type.width (combine type operation x y) k =
      operation type (Tensor.element type.width x k) (Tensor.element type.width y k) := by
  have hwidth := type.width_pos
  have hcount : ∀ {bytes : Bytes}, bytes.length = count * type.width →
      k < bytes.length / type.width := by
    intro bytes h
    rw [h, Nat.mul_div_cancel _ hwidth]
    exact hk
  have hread : Tensor.read type.width (combine type operation x y) =
      List.zipWith (operation type) (Tensor.read type.width x) (Tensor.read type.width y) := by
    apply Tensor.read_write hwidth
    intro element helement
    obtain ⟨i, hi, rfl⟩ := List.mem_iff_getElem.1 helement
    rw [List.getElem_zipWith, ← Tensor.modulus_eq_pow]
    exact hrange _ _
  have hresult := Tensor.getElem?_read (hcount (@length_combine type operation count x y hx hy))
  rw [hread, List.getElem?_zipWith, Tensor.getElem?_read (hcount hx),
    Tensor.getElem?_read (hcount hy)] at hresult
  exact (Option.some.inj hresult).symm

/-- A tensor of the size of two others whose elements are the results of an operation on their
elements: on whole numbers up to the modulus of the type, or on numbers of a format. -/
structure Elementwise (type : ElementType) (integers : Int → Int → Int)
    (reals : Binary.Format → Nat → Nat → Nat) (count : Nat) (x y result : Bytes) : Prop where
  first : x.length = count * type.width
  second : y.length = count * type.width
  length : result.length = count * type.width
  integer : Tensor.isInteger type → ∀ k < count,
    (Tensor.element type.width result k : Int) =
      integers (Tensor.integerValue type (Tensor.element type.width x k))
        (Tensor.integerValue type (Tensor.element type.width y k)) % 2 ^ (8 * type.width)
  real : ∀ format, Tensor.interpretation type = .real format → ∀ k < count,
    Tensor.element type.width result k =
      reals format (Tensor.element type.width x k) (Tensor.element type.width y k)

theorem elementwise_add (hx : x.length = count * type.width) (hy : y.length = count * type.width) :
    Elementwise type (· + ·) Binary.Format.add count x y (combine type Tensor.add x y) := by
  have helement := @element_combine type Tensor.add count x y Tensor.add_lt_modulus hx hy
  refine ⟨hx, hy, length_combine hx hy, ?_, ?_⟩
  · intro hinteger k hk
    rw [helement hk, Tensor.add_of_isInteger hinteger, Tensor.modulus_eq_two_pow]
  · intro format hformat k hk
    rw [helement hk, Tensor.add, hformat]

theorem elementwise_sub (hx : x.length = count * type.width) (hy : y.length = count * type.width) :
    Elementwise type (· - ·) Binary.Format.sub count x y (combine type Tensor.sub x y) := by
  have helement := @element_combine type Tensor.sub count x y Tensor.sub_lt_modulus hx hy
  refine ⟨hx, hy, length_combine hx hy, ?_, ?_⟩
  · intro hinteger k hk
    rw [helement hk, Tensor.sub_of_isInteger hinteger, Tensor.modulus_eq_two_pow]
  · intro format hformat k hk
    rw [helement hk, Tensor.sub, hformat]

variable {tensors : Tensors} {request : Request} {a b : InputTensor} {response : Response}

/-- How inputs of different shapes are refused. -/
def refusal (tensors : Tensors) : Status :=
  let first := tensors.first
  let second := tensors.second
  .invalidArg s!"{first} and {second} must have the same shape"

/-- Inputs of different shapes are refused before anything is stored. -/
theorem program_of_ne (ha : request.input tensors.first = .ok a)
    (hb : request.input tensors.second = .ok b) (hshape : a.shape ≠ b.shape) :
    program tensors request = .finish (.error (refusal tensors)) := by
  rw [program, Program.withInput_of_ok ha, Program.withInput_of_ok hb, if_neg hshape]
  rfl

theorem advance_eq_refusal (ha : request.input tensors.first = .ok a)
    (hb : request.input tensors.second = .ok b) (hshape : a.shape ≠ b.shape) :
    (program tensors request).advance response =
      (response, .finished (.error (refusal tensors))) := by
  rw [program_of_ne ha hb hshape, Program.advance]

theorem advance_of_ne (ha : request.input tensors.first = .ok a)
    (hb : request.input tensors.second = .ok b) (hshape : a.shape ≠ b.shape) :
    ∃ status, (program tensors request).advance response = (response, .finished (.error status)) ∧
      status.code = .invalidArg :=
  ⟨_, advance_eq_refusal ha hb hshape, rfl⟩

/-- The tensors that an execution stores. -/
def results (tensors : Tensors) (shape : Shape) (x y : Bytes) : List (String × OutputTensor) :=
  [(tensors.sum, { shape, data := combine tensors.type Tensor.add x y }),
    (tensors.difference, { shape, data := combine tensors.type Tensor.sub x y })]

/-- Of inputs of one shape the sum and the difference are stored. -/
theorem program_of_eq (ha : request.input tensors.first = .ok a)
    (hb : request.input tensors.second = .ok b) (hshape : a.shape = b.shape) :
    program tensors request = .storingAll (results tensors a.shape a.data b.data) := by
  rw [program, Program.withInput_of_ok ha, Program.withInput_of_ok hb, if_pos hshape]
  rfl

theorem advance_of_eq (ha : request.input tensors.first = .ok a)
    (hb : request.input tensors.second = .ok b) (hshape : a.shape = b.shape)
    (haccepts : ∀ stored ∈ results tensors a.shape a.data b.data,
      response.Accepts stored.1 stored.2) :
    (program tensors request).advance response =
      (response.keepAll (results tensors a.shape a.data b.data), .finished (.ok ())) := by
  rw [program_of_eq ha hb hshape, Program.advance_storingAll haccepts]

variable {first second : Input} {sum difference : Output} {shape : Shape}

theorem map_results (hfits : Fits config first second sum difference) :
    (results (described first second sum difference) shape x y).map (·.1) =
      config.outputs.map (·.name) := by
  rw [hfits.outputs]
  rfl

theorem accepts_results {normal : RequestHeader} {version : UInt64} {labels : Labels}
    (hconfig : config.WellFormed) (hdistinct : (normal.outputs.map (·.name)).Nodup)
    (hresponse : Response.create normal config version labels = .ok response)
    (hfits : Fits config first second sum difference)
    (hx : x.length = count * first.type.width) (hy : y.length = count * first.type.width)
    (hsize : Response.expectedBytes normal.batch first.type shape =
      some (count * first.type.width)) :
    ∀ stored ∈ results (described first second sum difference) shape x y,
      response.Accepts stored.1 stored.2 := by
  have haccepts : ∀ output ∈ config.outputs, output.type = first.type → ∀ operation,
      response.Accepts output.name { shape, data := combine first.type operation x y } := by
    intro output houtput htype operation
    apply Response.accepts_of_create hconfig hdistinct hresponse houtput
    rw [htype, hsize, length_combine hx hy]
  rw [hfits.outputs, List.forall_mem_cons, List.forall_mem_singleton] at haccepts
  rw [results, List.forall_mem_cons, List.forall_mem_singleton]
  exact ⟨haccepts.1 hfits.sum Tensor.add, haccepts.2 hfits.difference Tensor.sub⟩

/-- The outputs that are asked for are the sum and the difference of the two inputs, and inputs of
different shapes are the one way to fail. -/
theorem adds_and_subtracts {declared : Config} {directory model : String} {executor : Executor}
    {header normal : RequestHeader} {version served : UInt64} {data : InputData} {labels : Labels}
    (hvalid : declared.validate directory = .ok config)
    (hcreate : create config = .ok executor)
    (hnormal : normalized config header = .ok normal)
    (hassemble : Request.assemble model version normal config data = .ok request)
    (hresponse : Response.create normal config served labels = .ok response) :
    ∃ first second sum difference a b x y,
      Fits config first second sum difference ∧
      normal.findInput first.name = some a ∧ data.get? first.name = some x ∧
      normal.findInput second.name = some b ∧ data.get? second.name = some y ∧
      (a.shape ≠ b.shape → ∃ status,
        (executor request).advance response = (response, .finished (.error status)) ∧
        status.code = .invalidArg) ∧
      (a.shape = b.shape → ∃ stored final,
        (executor request).advance response = (stored, .finished (.ok ())) ∧
        stored.finalize = .ok final ∧
        (sum.name ∈ Response.askedNames config header → ∃ bytes,
          final.output sum.name = .ok bytes ∧
          Elementwise first.type (· + ·) Binary.Format.add (header.batch.toNat * a.shape.volume)
            x.flatten y.flatten bytes) ∧
        (difference.name ∈ Response.askedNames config header → ∃ bytes,
          final.output difference.name = .ok bytes ∧
          Elementwise first.type (· - ·) Binary.Format.sub (header.batch.toNat * a.shape.volume)
            x.flatten y.flatten bytes)) := by
  have hconfig := Config.wellFormed_of_validate hvalid
  obtain ⟨houtputs, hdistinct⟩ := outputs_of_normalized hnormal
  have hbatch : normal.batch = header.batch := by
    obtain ⟨-, -, -, -, -, -, hheader⟩ := normalized_eq_ok_iff.1 hnormal
    rw [hheader]
  obtain ⟨names, hnames, hexecutor⟩ := Outcome.bind_eq_ok_iff.1 hcreate
  obtain rfl := Except.ok.inj hexecutor
  obtain ⟨first, second, sum, difference, hfits, rfl⟩ := fits_of_tensors hnames
  obtain ⟨a, x, hfirst⟩ := @Request.exists_assembled config model version data header normal
    request hconfig hnormal hassemble first (by rw [hfits.inputs]; simp)
  obtain ⟨b, y, hsecond⟩ := @Request.exists_assembled config model version data header normal
    request hconfig hnormal hassemble second (by rw [hfits.inputs]; simp)
  refine ⟨first, second, sum, difference, a, b, x, y, hfits, hfirst.found, hfirst.provided,
    hsecond.found, hsecond.provided, ?_, ?_⟩
  · intro hshape
    exact @advance_of_ne (described first second sum difference) request _ _ response
      hfirst.input hsecond.input hshape
  · intro hshape
    have hx : x.flatten.length = header.batch.toNat * a.shape.volume * first.type.width := by
      rw [hfirst.exact, exactBytes, hbatch]
    have hy : y.flatten.length = header.batch.toNat * a.shape.volume * first.type.width := by
      rw [hsecond.exact, exactBytes, hbatch, hfits.second, hshape]
    have hadd := elementwise_add hx hy
    have hsub := elementwise_sub hx hy
    have haccepts := accepts_results hconfig hdistinct hresponse hfits hx hy
      (by rw [hfirst.expected, hx])
    have hstored := @advance_of_eq (described first second sum difference) request _ _ response
      hfirst.input hsecond.input hshape haccepts
    obtain ⟨final, hfinal, hanswers⟩ := Response.exists_answers hconfig hdistinct hresponse
      (@map_results config x.flatten y.flatten first second sum difference a.shape hfits)
    have hasked : Response.askedNames config normal = Response.askedNames config header :=
      Response.askedNames_congr houtputs
    refine ⟨_, final, hstored, hfinal, ?_, ?_⟩
    · intro hname
      exact ⟨_, hanswers.data _ (hasked ▸ hname) _ List.mem_cons_self, hadd⟩
    · intro hname
      exact ⟨_, hanswers.data _ (hasked ▸ hname) _ (List.mem_cons_of_mem _ List.mem_cons_self),
        hsub⟩

/-- A model that adds and subtracts pairs of bytes. -/
def calculator : Config where
  name := "calculator"
  platform := "add_sub"
  maxBatch := 0
  inputs := [
    { name := "a", type := .uint8, shape := [2] },
    { name := "b", type := .uint8, shape := [2] }]
  outputs := [
    { name := "sum", type := .uint8, shape := [2], labelFile := none },
    { name := "difference", type := .uint8, shape := [2], labelFile := none }]
  policy := .latest 1
  instances := 1

/-- A request that names the inputs in the other order and asks for the difference only. -/
def calculatorHeader : RequestHeader where
  id := 0
  batch := 1
  inputs := [
    { name := "b", shape := [], byteSize := 0 },
    { name := "a", shape := [], byteSize := 2 }]
  outputs := [{ name := "difference", classes := none }]

theorem adds_and_subtracts_calculator :
    ∃ executor normal request response stored final bytes,
      create calculator = .ok executor ∧ normalized calculator calculatorHeader = .ok normal ∧
      Request.assemble "calculator" 1 normal calculator
        (InputData.ofPieces [("b", [100, 2]), ("a", [200, 1])]) = .ok request ∧
      Response.create normal calculator 1 .empty = .ok response ∧
      (executor request).advance response = (stored, .finished (.ok ())) ∧
      stored.finalize = .ok final ∧ final.output "difference" = .ok bytes ∧ bytes.length = 2 ∧
      (Tensor.element 1 bytes 0 : Int) = 100 ∧ (Tensor.element 1 bytes 1 : Int) = 255 := by
  have hvalid : calculator.validate "calculator" = .ok calculator := by rfl
  obtain ⟨first, second, sum, difference, a, b, x, y, hfits, hfirst, hx, hsecond, hy, -, hequal⟩ :=
    @adds_and_subtracts calculator _ _ calculator "calculator" "calculator" _ calculatorHeader _ 1 1
      (InputData.ofPieces [("b", [100, 2]), ("a", [200, 1])]) .empty hvalid
      (by rfl) (by rfl) (by rfl) (by rfl)
  have hinputs := hfits.inputs
  have houtputs := hfits.outputs
  simp only [calculator, List.cons.injEq, and_true] at hinputs houtputs
  obtain ⟨rfl, rfl⟩ := hinputs
  obtain ⟨rfl, rfl⟩ := houtputs
  obtain rfl := Option.some.inj hfirst
  obtain rfl := Option.some.inj hsecond
  obtain rfl : [[200, 1]] = x := Option.some.inj hx
  obtain rfl : [[100, 2]] = y := Option.some.inj hy
  obtain ⟨stored, final, hadvance, hfinal, -, hdifference⟩ := hequal rfl
  obtain ⟨bytes, hbytes, helements⟩ := hdifference (by decide +kernel)
  have hinteger : Tensor.isInteger .uint8 := by
    intro format hformat
    simp [Tensor.interpretation] at hformat
  exact ⟨_, _, _, _, stored, final, bytes, rfl, rfl, rfl, rfl, hadvance, hfinal, hbytes,
    helements.length, helements.integer hinteger 0 (by decide +kernel),
    helements.integer hinteger 1 (by decide +kernel)⟩

end TensorInference.Platform.AddSub
