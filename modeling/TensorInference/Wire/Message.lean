import TensorInference.Json.Record
import TensorInference.Status

/-!
# Messages

Callers and the server exchange headers and status reports as JSON texts. A text that cannot be
read is an invalid argument, and the fault is told together with the kind of message.
-/

namespace TensorInference.Wire

/-- A kind of message: its written form and the name under which faults are told. -/
structure Message (α : Type) where
  title : String
  codec : Json.Codec α

namespace Message

variable {α : Type}

def write (message : Message α) (a : α) : Bytes :=
  message.codec.write a

def read (message : Message α) (text : Bytes) : Except Status α :=
  match message.codec.read text with
  | .ok a => .ok a
  | .error fault =>
    .error (.invalidArg ("failed to parse " ++ message.title ++ ": " ++ fault.message))

end Message

end TensorInference.Wire
