import TensorInference.Bytes
import TensorInference.Binary.Arithmetic
import TensorInference.Model.ElementType

/-!
# Elements of tensors

A tensor is stored as the little-endian patterns of its elements, one after the other. Here an
element is such a pattern as a natural number, whatever it stands for; the element type says how to
add and subtract patterns and how they rank. Bytes that are left over after the last whole element
belong to no element.
-/

namespace TensorInference.Tensor

open Model

/-- The first `count` groups of `width` items each. -/
def groups {α : Type} (width : Nat) : Nat → List α → List (List α)
  | 0, _ => []
  | count + 1, items => items.take width :: groups width count (items.drop width)

def read (width : Nat) (bytes : Bytes) : List Nat :=
  (groups width (bytes.length / width) bytes).map Bytes.toNat

def write (width : Nat) (elements : List Nat) : Bytes :=
  elements.flatMap (Bytes.ofNat width)

inductive Interpretation where
  | natural
  | integer
  | real (format : Binary.Format)

def interpretation : ElementType → Interpretation
  | .bool | .uint8 | .uint16 | .uint32 | .uint64 => .natural
  | .int8 | .int16 | .int32 | .int64 => .integer
  | .fp16 => .real Binary.half
  | .fp32 => .real Binary.single
  | .fp64 => .real Binary.double

def modulus (type : ElementType) : Nat :=
  1 <<< (8 * type.width)

/-- The integer that a pattern stands for; the upper half of the patterns is negative in signed
types. -/
def integerValue (type : ElementType) (pattern : Nat) : Int :=
  match interpretation type with
  | .integer => if 2 * pattern < modulus type then pattern else (pattern : Int) - modulus type
  | _ => pattern

/-- The sum of two elements. Integers wrap around. -/
def add (type : ElementType) (a b : Nat) : Nat :=
  match interpretation type with
  | .real format => format.add a b
  | _ => (a + b) % modulus type

def sub (type : ElementType) (a b : Nat) : Nat :=
  match interpretation type with
  | .real format => format.sub a b
  | _ => (a + (modulus type - b % modulus type)) % modulus type

/-- The double-precision number by which an element is ranked. Integers of more than 53 bits are
rounded. -/
def score (type : ElementType) (pattern : Nat) : Nat :=
  match interpretation type with
  | .natural | .integer => Binary.double.ofInt (integerValue type pattern)
  | .real format => if format = Binary.double then pattern else format.convert Binary.double pattern

theorem flatten_groups {α : Type} (width count : Nat) (items : List α) :
    (groups width count items).flatten = items.take (count * width) := by
  induction count generalizing items with
  | zero => simp [groups]
  | succ count ih =>
    rw [groups, List.flatten_cons, ih, Nat.succ_mul, Nat.add_comm, List.take_add]

theorem length_write (width : Nat) (elements : List Nat) :
    (write width elements).length = elements.length * width := by
  induction elements with
  | nil => simp [write]
  | cons element rest ih =>
    have hrest : (List.flatMap (Bytes.ofNat width) rest).length = rest.length * width := ih
    rw [write, List.flatMap_cons, List.length_append, Bytes.length_ofNat, hrest, List.length_cons,
      Nat.succ_mul, Nat.add_comm]

end TensorInference.Tensor
