import TensorInference.Model.Config
import TensorInference.Wire.RequestHeader

/-!
# Normalization of request headers

A request header is checked against the configuration of the model, and what it leaves open is
filled in: the shape of an input whose shape is fixed by the model, and the byte size of every
input. The checks run in the order of the header, and inputs before the faulty one stay filled in.

A header that passes gives every input of the model once, in any order, with positive dimensions
and the exact byte size, which fits into 64 bits.
-/

namespace TensorInference.Inference

open Model Wire

/-- What became of a header or a part of it, and whether it passed. -/
abbrev Checked (α : Type) := α × Except Status Unit

/-- Whether a given shape fits a described one: of the same rank, with positive sizes, equal where
the description is fixed. -/
def fits : Shape → Shape → Bool
  | [], [] => true
  | given :: more, described :: rest =>
    0 < given && (described = -1 || given = described) && fits more rest
  | _, _ => false

/-- The bytes of a batch of tensors, if they can be counted in 64 bits. -/
def batchBytes (batch : UInt32) (type : ElementType) (shape : Shape) : Option Nat := do
  let count ← shape.elementCount
  let item ← checkedMul count type.width
  checkedMul item batch.toNat

def settleShape (config : Config) (described : Input) (given : RequestInput) :
    Except Status Shape :=
  let model := config.name
  let name := given.name
  if given.shape = [] then
    if described.shape.any (· < 0) then
      .error (.invalidArg
        s!"must specify dims for variable-size input '{name}' for model '{model}'")
    else .ok described.shape
  else if fits given.shape described.shape then .ok given.shape
  else
    .error (.invalidArg
      (s!"unexpected shape for input '{name}' for model '{model}'. Expected " ++
        described.shape.describe ++ ", got " ++ given.shape.describe))

def settleSize (config : Config) (batch : UInt32) (described : Input) (given : RequestInput) :
    Except Status UInt64 :=
  let model := config.name
  let name := given.name
  match batchBytes batch described.type given.shape with
  | none => .error (.invalidArg s!"input '{name}' for model '{model}' is too large")
  | some expected =>
    if given.byteSize = 0 ∨ given.byteSize.toNat = expected then .ok (UInt64.ofNat expected)
    else
      let size := given.byteSize.toNat
      .error (.invalidArg (s!"specific batch-byte-size {size} for input '{name}' does not match " ++
        s!"expected byte-size {expected} for model '{model}'"))

/-- Check and fill in one input; `seen` are the names before it. -/
def normalizeInput (config : Config) (batch : UInt32) (seen : List String)
    (given : RequestInput) : Checked RequestInput :=
  let model := config.name
  let name := given.name
  if name ∈ seen then
    (given, .error (.invalidArg s!"duplicate input '{name}' for model '{model}'"))
  else match config.findInput name with
    | none =>
      (given, .error (.invalidArg s!"unexpected inference input '{name}' for model '{model}'"))
    | some described =>
      match settleShape config described given with
      | .error status => (given, .error status)
      | .ok shape =>
        let given := { given with shape }
        match settleSize config batch described given with
        | .error status => (given, .error status)
        | .ok byteSize => ({ given with byteSize }, .ok ())

/-- Check and fill in inputs up to the first faulty one. -/
def normalizeInputs (config : Config) (batch : UInt32) (seen : List String) :
    List RequestInput → Checked (List RequestInput)
  | [] => ([], .ok ())
  | given :: rest =>
    match normalizeInput config batch seen given with
    | (input, .error status) => (input :: rest, .error status)
    | (input, .ok ()) =>
      let (inputs, outcome) := normalizeInputs config batch (given.name :: seen) rest
      (input :: inputs, outcome)

/-- Check the wanted outputs; `seen` are the names so far. -/
def checkOutputs (config : Config) (seen : List String) : List RequestOutput → Except Status Unit
  | [] => .ok ()
  | output :: rest => do
    let model := config.name
    let name := output.name
    if name ∈ seen then
      .error (.invalidArg s!"duplicate output '{name}' for model '{model}'")
    if (config.findOutput name).isNone then
      .error (.invalidArg s!"unexpected inference output '{name}' for model '{model}'")
    checkOutputs config (name :: seen) rest

def checkBatch (config : Config) (batch : UInt32) : Except Status Unit :=
  let model := config.name
  if batch = 0 then
    .error (.invalidArg
      s!"inference request for model '{model}' must specify a positive batch size")
  else if config.maxBatch = 0 then
    if batch = 1 then .ok ()
    else
      .error (.invalidArg
        s!"model '{model}' does not support batching, batch size must be 1")
  else if config.maxBatch < batch then
    let size := batch.toNat
    let limit := config.maxBatch.toNat
    .error (.invalidArg s!"batch size {size} exceeds maximum {limit} for model '{model}'")
  else .ok ()

def checkInputCount (config : Config) (inputs : List RequestInput) : Except Status Unit :=
  let model := config.name
  let expected := config.inputs.length
  let count := inputs.length
  if count = expected then .ok ()
  else
    .error (.invalidArg s!"expected {expected} inputs but got {count} inputs for model '{model}'")

/-- Check a header and fill in what it leaves open. -/
def normalize (config : Config) (header : RequestHeader) : Checked RequestHeader :=
  match checkBatch config header.batch, checkInputCount config header.inputs with
  | .error status, _ => (header, .error status)
  | .ok (), .error status => (header, .error status)
  | .ok (), .ok () =>
    let (inputs, outcome) := normalizeInputs config header.batch [] header.inputs
    let header := { header with inputs }
    (header, do outcome; checkOutputs config [] header.outputs)

/-- The normal form of a header, if it passes. -/
def normalized (config : Config) (header : RequestHeader) : Except Status RequestHeader :=
  match normalize config header with
  | (header, .ok ()) => .ok header
  | (_, .error status) => .error status

end TensorInference.Inference
