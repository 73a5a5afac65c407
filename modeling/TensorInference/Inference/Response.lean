import TensorInference.Model.Labels
import TensorInference.Tensor.Elements
import TensorInference.Wire.RequestHeader
import TensorInference.Wire.ResponseHeader

/-!
# Responses

A response collects the outputs that a request asked for while the model computes them, and
describes them in its header once all are there. An output is stored only if its data have the size
that its shape, its type and the batch ask for, computed in words of 64 bits; an output that nobody
asked for is passed over. What fails leaves the response as it was.
-/

namespace TensorInference.Inference

open Model Wire

structure WantedOutput where
  name : String
  type : ElementType
  /-- How many of the best classes are to be listed instead of the tensor. -/
  classes : Option UInt32
  deriving DecidableEq

structure OutputTensor where
  /-- The shape of one batch item. -/
  shape : Shape
  /-- The elements of all batch items. -/
  data : Bytes
  deriving DecidableEq

structure Response where
  header : ResponseHeader
  wanted : List WantedOutput
  outputs : OrderedMap String OutputTensor
  labels : Labels

namespace Response

/-- What a request asks for by one of its outputs. -/
def wantOutput (config : Config) (output : RequestOutput) : Except Status WantedOutput :=
  let name := output.name
  let model := config.name
  match config.findOutput name with
  | none =>
    .error (.invalidArg s!"unexpected inference output '{name}' for model '{model}'")
  | some described =>
    match output.classes with
    | none => .ok { name, type := described.type, classes := none }
    | some count =>
      if count = 0 then
        .error (.invalidArg s!"classification count for output '{name}' must be positive")
      else if described.type.isNumeric then
        .ok { name, type := described.type, classes := some count }
      else
        let type := described.type.title
        .error (.invalidArg s!"classification is not supported for {type} output '{name}'")

/-- What a request asks for; a request without outputs asks for all of them as tensors. -/
def wantOutputs (config : Config) (header : RequestHeader) : Except Status (List WantedOutput) :=
  if header.outputs = [] then
    .ok (config.outputs.map fun output =>
      { name := output.name, type := output.type, classes := none })
  else header.outputs.mapM (wantOutput config)

def create (header : RequestHeader) (config : Config) (version : UInt64) (labels : Labels) :
    Except Status Response := do
  let wanted ← wantOutputs config header
  return {
    header := {
      id := header.id
      model := config.name
      version := version.toInt64
      batch := header.batch
      outputs := [] }
    wanted
    outputs := .empty
    labels }

def requires (response : Response) (name : String) : Bool :=
  response.wanted.any (·.name = name)

/-- The bytes that an output of a shape must have, if the shape can be counted. Only the count is
checked: a product with the width and the batch that is too large for a word wraps around. -/
def expectedBytes (batch : UInt32) (type : ElementType) (shape : Shape) : Option Nat :=
  shape.elementCount.map fun count => count * type.width * batch.toNat % UInt64.size

def store (response : Response) (name : String) (shape : Shape) (data : Bytes) :
    Except Status Response :=
  match response.wanted.find? (·.name = name) with
  | none => .ok response
  | some wanted =>
    match expectedBytes response.header.batch wanted.type shape with
    | none => .error (.internal (s!"output '{name}' has invalid dims " ++ shape.describe))
    | some expected =>
      let size := data.length
      if size = expected then
        .ok { response with outputs := response.outputs.insert name { shape, data } }
      else .error (.internal s!"output '{name}' has {size} bytes, expected {expected}")

/-- An element of a batch item with its place in it. -/
structure Ranked where
  index : Nat
  /-- The score, as the pattern of a double-precision number. -/
  score : Nat
  deriving DecidableEq, Repr

/-- The place of an element in the ranking: the greater score first, of equal ones the lower
index. -/
def Ranked.precedes (a b : Ranked) : Bool :=
  let x := Binary.double.totalKey a.score
  let y := Binary.double.totalKey b.score
  y < x || (x = y && a.index ≤ b.index)

def bestClasses (count : Nat) (label : Nat → String) (scores : List Nat) : List ClassScore :=
  let ranked := (scores.mapIdx fun index score => Ranked.mk index score).mergeSort Ranked.precedes
  (ranked.take count).map fun element => {
    index := UInt32.ofNat element.index
    score := UInt32.ofNat (Binary.double.convert Binary.single element.score)
    label := label element.index }

/-- The elements of each batch item. Fewer elements than items make one item each. -/
def batchItems (batch : Nat) (elements : List Nat) : List (List Nat) :=
  Tensor.groups (max 1 (elements.length / batch)) (min batch elements.length) elements

def classify (labels : Labels) (batch : Nat) (wanted : WantedOutput) (count : UInt32)
    (data : Bytes) : List (List ClassScore) :=
  let scores := (Tensor.read wanted.type.width data).map (Tensor.score wanted.type)
  (batchItems batch scores).map (bestClasses count.toNat (labels.label wanted.name))

def describe (response : Response) (wanted : WantedOutput) : Except Status ResponseOutput :=
  let name := wanted.name
  let model := response.header.model
  match response.outputs.get? name with
  | none =>
    .error (.internal s!"model '{model}' did not produce requested output '{name}'")
  | some tensor =>
    match wanted.classes with
    | none =>
      let raw := { shape := tensor.shape, byteSize := UInt64.ofNat tensor.data.length }
      .ok { name, raw := some raw, classes := [] }
    | some count =>
      let batch := max 1 response.header.batch.toNat
      .ok { name, raw := none, classes := classify response.labels batch wanted count tensor.data }

/-- Describe all outputs in the header. -/
def finalize (response : Response) : Except Status Response := do
  let outputs ← response.wanted.mapM response.describe
  return { response with header := { response.header with outputs } }

def clear (response : Response) : Response :=
  { response with header := { response.header with outputs := [] }, outputs := .empty }

def output (response : Response) (name : String) : Except Status Bytes :=
  let model := response.header.model
  match response.outputs.get? name with
  | some tensor => .ok tensor.data
  | none => .error (.notFound s!"output '{name}' was not produced by model '{model}'")

end Response

end TensorInference.Inference
