import TensorInference.Inference.Normalization
import TensorInference.Inference.Submission
import TensorInference.Model.Repository
import TensorInference.Platform.Registry

/-!
# Backends

A backend is a model version that was loaded: its labels are read and its platform has made an
executor. It turns a submission into a request and an empty response, or refuses it.
-/

namespace TensorInference.Server

open Model Files Inference

structure Backend where
  name : String
  version : UInt64
  config : Config
  labels : Labels
  /-- Whether its requests are counted in the metrics. -/
  metered : Bool
  executor : Platform.Executor

namespace Backend

def load (files : Tree) (registry : Platform.Registry) (metered : Bool) (definition : Definition)
    (version : UInt64) : Except Status Backend := do
  let labels ← Labels.load files definition.directory definition.config
  let executor ← registry.create definition.config (definition.versionDirectory version)
  return {
    name := definition.name
    version
    config := definition.config
    labels
    metered
    executor }

def describe (backend : Backend) : String :=
  "InferenceBackend \x7b name: " ++ Text.quoted backend.name ++ ", version: " ++
    toString backend.version.toNat ++ ", platform: " ++ Text.quoted backend.config.platform ++
    " \x7d"

def workers (backend : Backend) : Nat :=
  max 1 backend.config.instances.toNat

/-- Check a submission and turn it into a request with an empty response. -/
def prepare (backend : Backend) (submission : Submission) : Except Status (Request × Response) := do
  let header ← normalized backend.config submission.header
  let request ←
    Request.assemble backend.name backend.version header backend.config submission.data
  let response ← Response.create header backend.config backend.version backend.labels
  return (request, response)

end Backend

end TensorInference.Server
