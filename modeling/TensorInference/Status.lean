/-!
# Statuses

Every fallible operation of the server answers either its result or a `Status`: a failure code
with a message for people. Success is never a status, so the type rules the success code out
and a status can be handed on without asking what it means.
-/

namespace TensorInference

inductive Code where
  | success
  | unknown
  | internal
  | notFound
  | invalidArg
  | unavailable
  | unsupported
  | alreadyExists
  deriving DecidableEq, Repr

namespace Code

def name : Code → String
  | .success => "SUCCESS"
  | .unknown => "UNKNOWN"
  | .internal => "INTERNAL"
  | .notFound => "NOT_FOUND"
  | .invalidArg => "INVALID_ARG"
  | .unavailable => "UNAVAILABLE"
  | .unsupported => "UNSUPPORTED"
  | .alreadyExists => "ALREADY_EXISTS"

/-- Every code, in the order in which they are listed to users. -/
def all : List Code :=
  [.success, .unknown, .internal, .notFound, .invalidArg, .unavailable, .unsupported,
    .alreadyExists]

theorem mem_all (code : Code) : code ∈ all := by
  cases code <;> decide

theorem name_injective {a b : Code} (h : a.name = b.name) : a = b := by
  cases a <;> cases b <;> first | rfl | exact absurd h (by decide)

end Code

/-- A failure: a code other than success and a message. -/
structure Status where
  code : Code
  message : String
  failed : code ≠ .success := by decide
  deriving DecidableEq

namespace Status

instance : Repr Status where
  reprPrec status _ := "⟨" ++ repr status.code ++ ", " ++ repr status.message ++ "⟩"

/-- The status of a code, which the success code does not have. -/
def create (code : Code) (message : String) : Option Status :=
  if h : code = .success then none else some ⟨code, message, h⟩

/-- The outcome that a code stands for. -/
def check (code : Code) (message : String) : Except Status Unit :=
  match create code message with
  | some status => .error status
  | none => .ok ()

def unknown (message : String) : Status := ⟨.unknown, message, by decide⟩

def internal (message : String) : Status := ⟨.internal, message, by decide⟩

def notFound (message : String) : Status := ⟨.notFound, message, by decide⟩

def invalidArg (message : String) : Status := ⟨.invalidArg, message, by decide⟩

def unavailable (message : String) : Status := ⟨.unavailable, message, by decide⟩

def unsupported (message : String) : Status := ⟨.unsupported, message, by decide⟩

/-- Put a circumstance in front of the message; the code stays. -/
def context (status : Status) (circumstance : String) : Status :=
  { status with message := circumstance ++ ": " ++ status.message }

def render (status : Status) : String :=
  status.code.name ++ ": " ++ status.message

/-- What a failed access to a file means to the caller: only an absent file is told apart. -/
def ofAccess (absent : Bool) (message : String) : Status :=
  if absent then notFound message else internal message

end Status

end TensorInference
