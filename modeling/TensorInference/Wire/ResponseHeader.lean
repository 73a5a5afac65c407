import TensorInference.Wire.Message
import TensorInference.Model.Shape

/-!
# Response headers

The header of a response describes the outputs that a request asked for, in the order of the
request: the shape and size of a tensor that is answered as it is, or the best classes of every
batch item.
-/

namespace TensorInference.Wire

open Json Model

structure RawOutput where
  /-- The shape of one batch item. -/
  shape : Shape
  /-- The bytes of the whole batch. -/
  byteSize : UInt64
  deriving DecidableEq, Repr

structure ClassScore where
  index : UInt32
  /-- The score, as the pattern of a single-precision number. -/
  score : UInt32
  /-- The label of the class; empty when it has none. -/
  label : String
  deriving DecidableEq, Repr

structure ResponseOutput where
  name : String
  /-- Present when the tensor was asked for. -/
  raw : Option RawOutput
  /-- The best classes of every batch item, when classes were asked for. -/
  classes : List (List ClassScore)
  deriving DecidableEq, Repr

structure ResponseHeader where
  id : UInt64
  model : String
  version : Int64
  batch : UInt32
  outputs : List ResponseOutput
  deriving DecidableEq, Repr

def RawOutput.format : RecordFormat RawOutput where
  title := "struct RawOutput"
  types := [Shape, UInt64]
  fields :=
    .cons { name := "dims", codec := Shape.codec, get := (·.shape) } <|
    .cons { name := "batch_byte_size", codec := .word64, get := (·.byteSize) } .nil
  build := fun (shape, byteSize, ()) => { shape, byteSize }

def ClassScore.format : RecordFormat ClassScore where
  title := "struct ClassResult"
  types := [UInt32, UInt32, String]
  fields :=
    .cons { name := "idx", codec := .word32, get := (·.index) } <|
    .cons { name := "value", codec := .single, get := (·.score) } <|
    .cons
      { name := "label", codec := .text, get := (·.label), absent := some "",
        omitted := String.isEmpty } .nil
  build := fun (index, score, label, ()) => { index, score, label }

def itemClassesFormat : RecordFormat (List ClassScore) where
  title := "struct BatchClasses"
  types := [List ClassScore]
  fields := .cons { name := "cls", codec := ClassScore.format.codec.list, get := id } .nil
  build := fun (classes, ()) => classes

def ResponseOutput.format : RecordFormat ResponseOutput where
  title := "struct ResponseOutput"
  types := [String, Option RawOutput, List (List ClassScore)]
  fields :=
    .cons { name := "name", codec := .text, get := (·.name) } <|
    .cons
      { name := "raw", codec := RawOutput.format.codec.option, get := (·.raw),
        absent := some none, omitted := Option.isNone } <|
    .cons
      { name := "batch_classes", codec := itemClassesFormat.codec.list, get := (·.classes),
        absent := some [], omitted := List.isEmpty } .nil
  build := fun (name, raw, classes, ()) => { name, raw, classes }

namespace ResponseHeader

def format : RecordFormat ResponseHeader where
  title := "struct InferResponseHeader"
  types := [UInt64, String, Int64, UInt32, List ResponseOutput]
  fields :=
    .cons { name := "id", codec := .word64, get := (·.id) } <|
    .cons { name := "model_name", codec := .text, get := (·.model) } <|
    .cons { name := "model_version", codec := .integer64, get := (·.version) } <|
    .cons { name := "batch_size", codec := .word32, get := (·.batch) } <|
    .cons
      { name := "output", codec := ResponseOutput.format.codec.list, get := (·.outputs) } .nil
  build := fun (id, model, version, batch, outputs, ()) => { id, model, version, batch, outputs }

def message : Message ResponseHeader where
  title := "InferResponseHeader"
  codec := format.codec

def findOutput (header : ResponseHeader) (name : String) : Option ResponseOutput :=
  header.outputs.find? (·.name = name)

end ResponseHeader

end TensorInference.Wire
