import TensorInference.Files.Tree
import TensorInference.Json.Record

/-!
# Server options

The options of a server are given when it is created. Every option has a default, so any part of
them may be written down.
-/

namespace TensorInference.Server

open Json Files

structure Options where
  /-- The directory that is scanned for models. -/
  repository : String := ""
  /-- The name that the server reports; when it is empty, one is made up. -/
  id : String := ""
  /-- Whether the server is ready only when every version of every model is. -/
  strictReadiness : Bool := true
  /-- How many seconds stopping waits for requests to complete. -/
  exitTimeout : UInt64 := 30
  workerThreads : UInt64 := 0
  /-- How many requests may wait for one model version. -/
  queueCapacity : UInt64 := 1024
  metrics : Bool := true
  deriving DecidableEq, Repr

namespace Options

def format : RecordFormat Options where
  title := "struct ServerOptions"
  types := [String, String, Bool, UInt64, UInt64, UInt64, Bool]
  fields :=
    .cons
      { name := "model_repository_path", codec := .path, get := (·.repository),
        absent := some "" } <|
    .cons { name := "server_id", codec := .text, get := (·.id), absent := some "" } <|
    .cons
      { name := "strict_readiness", codec := .boolean, get := (·.strictReadiness),
        absent := some true } <|
    .cons
      { name := "exit_timeout_secs", codec := .word64, get := (·.exitTimeout),
        absent := some 30 } <|
    .cons
      { name := "worker_threads", codec := .size, get := (·.workerThreads), absent := some 0 } <|
    .cons
      { name := "queue_capacity", codec := .size, get := (·.queueCapacity),
        absent := some 1024 } <|
    .cons { name := "metrics", codec := .boolean, get := (·.metrics), absent := some true } .nil
  build := fun (repository, id, strictReadiness, exitTimeout, workerThreads, queueCapacity,
      metrics, ()) =>
    { repository, id, strictReadiness, exitTimeout, workerThreads, queueCapacity, metrics }

def codec : Codec Options := format.codec

inductive LoadFault where
  | access (fault : AccessFault)
  | text (fault : Fault)

def LoadFault.message : LoadFault → String
  | .access fault => fault.message
  | .text fault => fault.message

/-- Read options from a file; a file that is not there leaves all options at their defaults. -/
def load (files : Tree) (path : Path) : Except LoadFault Options :=
  if files.contains path then
    match files.readText path with
    | .error fault => .error (.access fault)
    | .ok text =>
      match codec.read (Bytes.ofText text) with
      | .error fault => .error (.text fault)
      | .ok options => .ok options
  else .ok {}

end Options

end TensorInference.Server
