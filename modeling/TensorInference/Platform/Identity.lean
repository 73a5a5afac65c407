import TensorInference.Platform.Program

/-!
# The identity platform

Every output of the model is a copy of the input at the same position. A model fits if it has as
many outputs as inputs and the types agree.
-/

namespace TensorInference.Platform.Identity

open Model Inference

def pair (config : Config) (input : Input) (output : Output) : Except Status (String × String) :=
  let model := config.name
  let source := input.name
  let target := output.name
  if input.type = output.type then .ok (source, target)
  else
    let given := input.type.title
    let wanted := output.type.title
    .error (.invalidArg
      s!"identity model '{model}' maps {given} input '{source}' to {wanted} output '{target}'")

/-- The inputs of a model with the outputs that they are copied to. -/
def pairs (config : Config) : Except Status (List (String × String)) :=
  let model := config.name
  if config.inputs.length = config.outputs.length then
    (config.inputs.zip config.outputs).mapM fun tensors => pair config tensors.1 tensors.2
  else
    .error (.invalidArg s!"identity model '{model}' must have as many outputs as inputs")

def program (request : Request) : List (String × String) → Program
  | [] => .done
  | (input, output) :: rest =>
    .withInput request input fun tensor =>
      .storing output tensor.shape tensor.data (program request rest)

def create (config : Config) : Except Status Executor := do
  let pairs ← pairs config
  return fun request => program request pairs

end TensorInference.Platform.Identity
