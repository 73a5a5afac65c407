import TensorInference.Wire.Message
import TensorInference.Model.Shape

/-!
# Request headers

The header of a request names the inputs whose data comes with it, with their shapes and sizes, and
the outputs that are wanted. What a header does not say is left at zero or empty and may be filled
in from the model's configuration.
-/

namespace TensorInference.Wire

open Json Model

structure RequestInput where
  name : String
  /-- The shape of one batch item; empty when the caller does not give it. -/
  shape : Shape
  /-- The bytes of the whole batch; zero when the caller does not give them. -/
  byteSize : UInt64
  deriving DecidableEq, Repr

structure RequestOutput where
  name : String
  /-- How many of the best classes are wanted instead of the tensor. -/
  classes : Option UInt32
  deriving DecidableEq, Repr

structure RequestHeader where
  /-- Chosen by the caller and echoed in the response. -/
  id : UInt64
  batch : UInt32
  inputs : List RequestInput
  /-- The wanted outputs; none means all. -/
  outputs : List RequestOutput
  deriving DecidableEq, Repr

def RequestInput.format : RecordFormat RequestInput where
  title := "struct RequestInput"
  types := [String, Shape, UInt64]
  fields :=
    .cons { name := "name", codec := .text, get := (·.name) } <|
    .cons
      { name := "dims", codec := Shape.codec, get := (·.shape), absent := some [],
        omitted := List.isEmpty } <|
    .cons
      { name := "batch_byte_size", codec := .word64, get := (·.byteSize), absent := some 0 } .nil
  build := fun (name, shape, byteSize, ()) => { name, shape, byteSize }
  strict := true

/-- The written form of a wish for classes. -/
def classesFormat : RecordFormat UInt32 where
  title := "struct ClassificationRequest"
  types := [UInt32]
  fields := .cons { name := "count", codec := .word32, get := id } .nil
  build := fun (count, ()) => count
  strict := true

def RequestOutput.format : RecordFormat RequestOutput where
  title := "struct RequestOutput"
  types := [String, Option UInt32]
  fields :=
    .cons { name := "name", codec := .text, get := (·.name) } <|
    .cons
      { name := "cls", codec := classesFormat.codec.option, get := (·.classes),
        absent := some none, omitted := Option.isNone } .nil
  build := fun (name, classes, ()) => { name, classes }
  strict := true

namespace RequestHeader

def format : RecordFormat RequestHeader where
  title := "struct InferRequestHeader"
  types := [UInt64, UInt32, List RequestInput, List RequestOutput]
  fields :=
    .cons { name := "id", codec := .word64, get := (·.id), absent := some 0 } <|
    .cons { name := "batch_size", codec := .word32, get := (·.batch), absent := some 0 } <|
    .cons
      { name := "input", codec := RequestInput.format.codec.list, get := (·.inputs),
        absent := some [] } <|
    .cons
      { name := "output", codec := RequestOutput.format.codec.list, get := (·.outputs),
        absent := some [] } .nil
  build := fun (id, batch, inputs, outputs, ()) => { id, batch, inputs, outputs }
  strict := true

def message : Message RequestHeader where
  title := "InferRequestHeader"
  codec := format.codec

/-- A header that names inputs and outputs and says nothing else about them. -/
def ofNames (batch : UInt32) (inputs outputs : List String) : RequestHeader where
  id := 0
  batch := batch
  inputs := inputs.map fun name => { name, shape := [], byteSize := 0 }
  outputs := outputs.map fun name => { name, classes := none }

def findInput (header : RequestHeader) (name : String) : Option RequestInput :=
  header.inputs.find? (·.name = name)

def findOutput (header : RequestHeader) (name : String) : Option RequestOutput :=
  header.outputs.find? (·.name = name)

end RequestHeader

end TensorInference.Wire
