import TensorInference.Platform.Program

/-!
# The add_sub platform

The first output of the model is the sum of its two inputs, the second one their difference,
element by element. A model fits if it has two inputs and two outputs of one numeric type. That the
inputs have one shape is checked for every request.
-/

namespace TensorInference.Platform.AddSub

open Model Inference

structure Tensors where
  type : ElementType
  first : String
  second : String
  sum : String
  difference : String
  deriving DecidableEq, Repr

/-- Check that tensors have the type of the first one. -/
def checkTypes (model : String) (type : ElementType) : List (String × ElementType) →
    Except Status Unit
  | [] => .ok ()
  | (name, other) :: rest =>
    if other = type then checkTypes model type rest
    else
      let wanted := type.title
      let found := other.title
      .error (.invalidArg
        s!"add_sub model '{model}' expects every tensor to be {wanted}, '{name}' is {found}")

def tensors (config : Config) : Except Status Tensors :=
  let model := config.name
  match config.inputs, config.outputs with
  | [a, b], [s, d] => do
    checkTypes model a.type
      [(a.name, a.type), (b.name, b.type), (s.name, s.type), (d.name, d.type)]
    if a.type = .bool then
      .error (.unsupported s!"add_sub model '{model}' does not support BOOL tensors")
    else
      .ok { type := a.type, first := a.name, second := b.name, sum := s.name, difference := d.name }
  | _, _ =>
    .error (.invalidArg s!"add_sub model '{model}' must have exactly 2 inputs and 2 outputs")

def combine (type : ElementType) (operation : ElementType → Nat → Nat → Nat) (a b : Bytes) :
    Bytes :=
  Tensor.write type.width
    (List.zipWith (operation type) (Tensor.read type.width a) (Tensor.read type.width b))

def program (tensors : Tensors) (request : Request) : Program :=
  .withInput request tensors.first fun a =>
    .withInput request tensors.second fun b =>
      if a.shape = b.shape then
        .storing tensors.sum a.shape (combine tensors.type Tensor.add a.data b.data) <|
        .storing tensors.difference a.shape (combine tensors.type Tensor.sub a.data b.data) .done
      else
        let first := tensors.first
        let second := tensors.second
        .finish (.error (.invalidArg s!"{first} and {second} must have the same shape"))

def create (config : Config) : Except Status Executor := do
  let tensors ← tensors config
  return program tensors

end TensorInference.Platform.AddSub
