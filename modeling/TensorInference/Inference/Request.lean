import TensorInference.Model.Config
import TensorInference.OrderedMap
import TensorInference.Wire.RequestHeader

/-!
# Requests

A caller hands over the data of every input in pieces of any size. Assembly joins the pieces of
each input in the order in which they were given and checks them against the header; nothing may
be given that the header does not announce, and nothing may be missing.
-/

namespace TensorInference.Inference

open Model Wire

/-- The pieces of data of each input, in the order in which they were given. -/
abbrev InputData := OrderedMap String (List Bytes)

namespace InputData

/-- Give a further piece of data of an input. -/
def append (data : InputData) (input : String) (piece : Bytes) : InputData :=
  data.upsert input [] (· ++ [piece])

def ofPieces (pieces : List (String × Bytes)) : InputData :=
  pieces.foldl (fun data piece => append data piece.1 piece.2) .empty

end InputData

/-- The data of one input of a request. -/
structure InputTensor where
  name : String
  type : ElementType
  /-- The shape of one batch item. -/
  shape : Shape
  /-- The elements of all batch items. -/
  data : Bytes
  deriving DecidableEq

structure Request where
  model : String
  version : UInt64
  header : RequestHeader
  /-- One tensor for every input of the header, in its order. -/
  inputs : List InputTensor
  deriving DecidableEq

namespace Request

def assembleInput (model : String) (config : Config) (data : InputData) (input : RequestInput) :
    Except Status InputTensor :=
  let name := input.name
  match config.findInput name, data.get? name with
  | none, _ =>
    .error (.invalidArg s!"unexpected inference input '{name}' for model '{model}'")
  | some _, none =>
    .error (.invalidArg s!"input '{name}' was not provided for model '{model}'")
  | some described, some pieces =>
    let bytes := pieces.flatten
    let total := bytes.length
    let expected := input.byteSize.toNat
    if total = expected then
      .ok { name, type := described.type, shape := input.shape, data := bytes }
    else
      .error (.invalidArg s!"unexpected size {total} for input '{name}', expecting {expected}")

def assemble (model : String) (version : UInt64) (header : RequestHeader) (config : Config)
    (data : InputData) : Except Status Request :=
  match data.keys.find? fun name => (header.findInput name).isNone with
  | some name =>
    .error (.invalidArg
      s!"unexpected data for input '{name}' which is not in the request header")
  | none => do
    let inputs ← header.inputs.mapM (assembleInput model config data)
    return { model, version, header, inputs }

def input (request : Request) (name : String) : Except Status InputTensor :=
  match request.inputs.find? (·.name = name) with
  | some tensor => .ok tensor
  | none => .error (.invalidArg s!"input '{name}' is missing from the request")

end Request

end TensorInference.Inference
