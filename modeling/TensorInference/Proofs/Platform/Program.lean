import TensorInference.Platform.Program
import TensorInference.Proofs.Inference.Completion

/-!
# Steps of executions

A program that stores an accepted output goes on with the response that keeps it, and one that
uses an input of the request goes on with its tensor. The programs of the standard platforms come
down to storing outputs one after the other.
-/

namespace TensorInference.Platform.Program

open Inference

variable {response : Response} {name : String} {tensor : OutputTensor} {next : Program}

theorem advance_storing (h : response.Accepts name tensor) :
    (storing name tensor.shape tensor.data next).advance response =
      next.advance (response.keep name tensor) := by
  rw [storing, advance, Response.store_of_accepts h]

theorem withInput_of_ok {request : Request} {input : InputTensor} {use : InputTensor → Program}
    (h : request.input name = .ok input) : withInput request name use = use input := by
  rw [withInput, h]

/-- Store outputs one after the other; fail at the first one that is not accepted. -/
def storingAll : List (String × OutputTensor) → Program
  | [] => done
  | stored :: rest => storing stored.1 stored.2.shape stored.2.data (storingAll rest)

/-- If all outputs are accepted, all of them are kept. -/
theorem advance_storingAll {tensors : List (String × OutputTensor)}
    (h : ∀ stored ∈ tensors, response.Accepts stored.1 stored.2) :
    (storingAll tensors).advance response = (response.keepAll tensors, .finished (.ok ())) := by
  induction tensors generalizing response with
  | nil => rfl
  | cons stored rest ih =>
    rw [List.forall_mem_cons] at h
    rw [storingAll, advance_storing h.1]
    apply ih
    intro other hother
    rw [Response.accepts_keep]
    exact h.2 other hother

end TensorInference.Platform.Program
