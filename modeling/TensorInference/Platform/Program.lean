import TensorInference.Inference.Request
import TensorInference.Inference.Response

/-!
# Executions

What a model does with a request is a program: it stores outputs one after the other, learns after
each whether it was accepted, and ends with success, with an error or by crashing. In between it
may wait for something outside the server. A program says nothing about the response; `advance`
lets it work on one.
-/

namespace TensorInference.Platform

open Model Inference

/-- What a model does with a request. -/
inductive Program where
  | finish (outcome : Except Status Unit)
  /-- End without an outcome, perhaps with a message. -/
  | crash (message : Option String)
  /-- Store an output and go on with what became of it. -/
  | store (name : String) (shape : Shape) (data : Bytes)
      (next : Except Status Unit → Program)
  /-- Wait until the outside lets the program go on. -/
  | wait (next : Program)

inductive Pause where
  | finished (outcome : Except Status Unit)
  | crashed (message : Option String)
  | waiting (next : Program)

namespace Program

/-- Let a program work on a response until it ends or waits. -/
def advance : Program → Response → Response × Pause
  | .finish outcome, response => (response, .finished outcome)
  | .crash message, response => (response, .crashed message)
  | .wait next, response => (response, .waiting next)
  | .store name shape data next, response =>
    match response.store name shape data with
    | .ok response => advance (next (.ok ())) response
    | .error status => advance (next (.error status)) response

/-- Store an output; fail if it is not accepted. -/
def storing (name : String) (shape : Shape) (data : Bytes) (next : Program) : Program :=
  .store name shape data fun
    | .ok () => next
    | .error status => .finish (.error status)

/-- Use the data of an input; fail if the request has none. -/
def withInput (request : Request) (name : String) (next : InputTensor → Program) : Program :=
  match request.input name with
  | .ok tensor => next tensor
  | .error status => .finish (.error status)

def done : Program :=
  .finish (.ok ())

end Program

/-- What a loaded model version does with each request. -/
abbrev Executor := Request → Program

end TensorInference.Platform
