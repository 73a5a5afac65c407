import TensorInference.Inference.Request

/-!
# Submissions

A submission is what a caller asks of the server: a model, a version of it, a header and the data
of the inputs. A nonnegative selector names one version, and any other asks for the latest one.
-/

namespace TensorInference.Inference

open Wire

structure Submission where
  model : String
  /-- The wanted version; negative for the latest one. -/
  selector : Int64
  header : RequestHeader
  data : InputData

namespace Submission

def latest : Int64 := -1

/-- A submission with a header and without data. -/
def create (model : String) (selector : Int64) (header : Bytes) : Except Status Submission := do
  let header ← RequestHeader.message.read header
  return { model, selector, header, data := .empty }

def append (submission : Submission) (input : String) (piece : Bytes) : Submission :=
  { submission with data := submission.data.append input piece }

end Submission

end TensorInference.Inference
