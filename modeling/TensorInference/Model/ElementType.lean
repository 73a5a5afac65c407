import TensorInference.Json.Codec

/-!
# Element types

The elements of a tensor are truth values, integers of eight widths and signs, or binary
floating-point numbers of three formats. All elements of one type have the same width.
-/

namespace TensorInference.Model

open Json

inductive ElementType where
  | bool
  | uint8
  | uint16
  | uint32
  | uint64
  | int8
  | int16
  | int32
  | int64
  | fp16
  | fp32
  | fp64
  deriving DecidableEq, Repr

namespace ElementType

/-- Every element type, in the order in which they are listed to users. -/
def all : List ElementType :=
  [.bool, .uint8, .uint16, .uint32, .uint64, .int8, .int16, .int32, .int64, .fp16, .fp32, .fp64]

theorem mem_all (type : ElementType) : type ∈ all := by
  cases type <;> decide

/-- The name of an element type in configurations. -/
def name : ElementType → String
  | .bool => "BOOL"
  | .uint8 => "UINT8"
  | .uint16 => "UINT16"
  | .uint32 => "UINT32"
  | .uint64 => "UINT64"
  | .int8 => "INT8"
  | .int16 => "INT16"
  | .int32 => "INT32"
  | .int64 => "INT64"
  | .fp16 => "FP16"
  | .fp32 => "FP32"
  | .fp64 => "FP64"

/-- The name of an element type in messages. -/
def title : ElementType → String
  | .bool => "Bool"
  | .uint8 => "Uint8"
  | .uint16 => "Uint16"
  | .uint32 => "Uint32"
  | .uint64 => "Uint64"
  | .int8 => "Int8"
  | .int16 => "Int16"
  | .int32 => "Int32"
  | .int64 => "Int64"
  | .fp16 => "Fp16"
  | .fp32 => "Fp32"
  | .fp64 => "Fp64"

theorem name_injective {a b : ElementType} (h : a.name = b.name) : a = b := by
  revert a b
  have key : ∀ a ∈ all, ∀ b ∈ all, a.name = b.name → a = b := by decide
  exact fun {a b} => key a (mem_all a) b (mem_all b)

def width : ElementType → Nat
  | .bool | .uint8 | .int8 => 1
  | .uint16 | .int16 | .fp16 => 2
  | .uint32 | .int32 | .fp32 => 4
  | .uint64 | .int64 | .fp64 => 8

theorem width_pos (type : ElementType) : 0 < type.width := by
  cases type <;> decide

def isNumeric (type : ElementType) : Bool :=
  type ≠ .bool

def codec : Codec ElementType :=
  Codec.named name all

end ElementType

end TensorInference.Model
