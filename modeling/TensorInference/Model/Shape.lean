import TensorInference.Json.Codec

/-!
# Shapes

A shape lists the sizes of the dimensions of one batch item. In a model's description a size of
minus one leaves the dimension open. Counts are computed in 64 bits and are missing when they do
not fit; this is checked after every factor, so a zero further on does not mend an overflow.
-/

namespace TensorInference.Model

open Json

abbrev Shape := List Int64

/-- The product of two counts, if it fits into 64 bits. -/
def checkedMul (a b : Nat) : Option Nat :=
  if a * b < UInt64.size then some (a * b) else none

namespace Shape

def countFrom (count : Nat) : Shape → Option Nat
  | [] => some count
  | size :: rest =>
    if size < 0 then none
    else (checkedMul count size.toNatClampNeg).bind fun count => countFrom count rest

/-- The number of elements of a shape without open dimensions. -/
def elementCount (shape : Shape) : Option Nat :=
  countFrom 1 shape

/-- Whether a model may describe a tensor by this shape. -/
def isDescription (shape : Shape) : Bool :=
  shape.all fun size => 0 < size || size = -1

def isFixed (shape : Shape) : Bool :=
  shape.all fun size => 0 ≤ size

def describe (shape : Shape) : String :=
  Text.bracketed (shape.map fun size => toString size.toInt)

def codec : Codec Shape :=
  Codec.integer64.list

end Shape

end TensorInference.Model
