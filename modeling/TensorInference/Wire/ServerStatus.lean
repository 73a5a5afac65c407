import TensorInference.Wire.Message
import TensorInference.Model.Config

/-!
# Status reports

A status report tells the state of the server and, for every model, the state and the request
statistics of its versions. Reports are values; the tables that they are taken from belong to the
server.
-/

namespace TensorInference.Wire

open Json Model

inductive ServerState where
  | invalid
  | initializing
  | ready
  | exiting
  | failedToInitialize
  deriving DecidableEq, Repr

namespace ServerState

def name : ServerState → String
  | .invalid => "INVALID"
  | .initializing => "INITIALIZING"
  | .ready => "READY"
  | .exiting => "EXITING"
  | .failedToInitialize => "FAILED_TO_INITIALIZE"

def title : ServerState → String
  | .invalid => "Invalid"
  | .initializing => "Initializing"
  | .ready => "Ready"
  | .exiting => "Exiting"
  | .failedToInitialize => "FailedToInitialize"

/-- Whether the server is there at all, ready or not. -/
def isLive : ServerState → Bool
  | .initializing | .ready | .exiting => true
  | .invalid | .failedToInitialize => false

def codec : Codec ServerState :=
  .named name [.invalid, .initializing, .ready, .exiting, .failedToInitialize]

end ServerState

inductive VersionState where
  | unknown
  | loading
  | ready
  | unavailable
  deriving DecidableEq, Repr

namespace VersionState

def name : VersionState → String
  | .unknown => "UNKNOWN"
  | .loading => "LOADING"
  | .ready => "READY"
  | .unavailable => "UNAVAILABLE"

def title : VersionState → String
  | .unknown => "Unknown"
  | .loading => "Loading"
  | .ready => "Ready"
  | .unavailable => "Unavailable"

def codec : Codec VersionState :=
  .named name [.unknown, .loading, .ready, .unavailable]

end VersionState

/-- How often something happened and how long it took altogether, in nanoseconds. -/
structure Tally where
  count : UInt64
  time : UInt64
  deriving DecidableEq, Repr

/-- What happened to the requests of one batch size. -/
structure BatchStatistics where
  success : Tally
  failed : Tally
  compute : Tally
  queue : Tally
  deriving DecidableEq, Repr

structure VersionStatus where
  state : VersionState
  /-- Why the version is not available. -/
  reason : Option String
  /-- What happened to requests, by batch size. -/
  statistics : OrderedMap UInt32 BatchStatistics
  /-- How often the model was executed. -/
  executions : UInt64
  /-- How many batch items were inferred. -/
  inferences : UInt64

structure ModelStatus where
  /-- The configuration, if it could be read. -/
  config : Option Config
  /-- Why the model as a whole is not available. -/
  reason : Option String
  versions : OrderedMap UInt64 VersionStatus

structure ServerStatus where
  id : String
  /-- The version of the server program. -/
  version : String
  state : ServerState
  /-- Nanoseconds since the server was created. -/
  uptime : UInt64
  models : OrderedMap String ModelStatus

namespace Tally

def zero : Tally := ⟨0, 0⟩

/-- Count an event that took so many nanoseconds; a time is capped at 64 bits. -/
def record (tally : Tally) (time : Nat) : Tally :=
  ⟨tally.count + 1, tally.time + UInt64.ofNat (min time (UInt64.size - 1))⟩

end Tally

def BatchStatistics.zero : BatchStatistics :=
  ⟨.zero, .zero, .zero, .zero⟩

/-- A version in a state, without requests so far. -/
def VersionStatus.initial (state : VersionState) : VersionStatus :=
  ⟨state, none, .empty, 0, 0⟩

namespace ModelStatus

def empty : ModelStatus := ⟨none, none, .empty⟩

/-- Whether the configuration was read and every version is ready; a model without versions is
not ready. -/
def isFullyReady (model : ModelStatus) : Bool :=
  model.config.isSome && !model.versions.isEmpty &&
    model.versions.values.all fun version => version.state = .ready

end ModelStatus

def Tally.format : RecordFormat Tally where
  title := "struct StatDuration"
  types := [UInt64, UInt64]
  fields :=
    .cons { name := "count", codec := .word64, get := (·.count) } <|
    .cons { name := "total_time_ns", codec := .word64, get := (·.time) } .nil
  build := fun (count, time, ()) => { count, time }

def BatchStatistics.format : RecordFormat BatchStatistics where
  title := "struct InferRequestStats"
  types := [Tally, Tally, Tally, Tally]
  fields :=
    .cons { name := "success", codec := Tally.format.codec, get := (·.success) } <|
    .cons { name := "failed", codec := Tally.format.codec, get := (·.failed) } <|
    .cons { name := "compute", codec := Tally.format.codec, get := (·.compute) } <|
    .cons { name := "queue", codec := Tally.format.codec, get := (·.queue) } .nil
  build := fun (success, failed, compute, queue, ()) => { success, failed, compute, queue }

def VersionStatus.format : RecordFormat VersionStatus where
  title := "struct ModelVersionStatus"
  types := [VersionState, Option String, OrderedMap UInt32 BatchStatistics, UInt64, UInt64]
  fields :=
    .cons { name := "ready_state", codec := VersionState.codec, get := (·.state) } <|
    .cons
      { name := "reason", codec := Codec.text.option, get := (·.reason), absent := some none,
        omitted := Option.isNone } <|
    .cons
      { name := "infer_stats", codec := BatchStatistics.format.codec.map .word32,
        get := (·.statistics), absent := some .empty } <|
    .cons
      { name := "model_execution_count", codec := .word64, get := (·.executions),
        absent := some 0 } <|
    .cons
      { name := "model_inference_count", codec := .word64, get := (·.inferences),
        absent := some 0 } .nil
  build := fun (state, reason, statistics, executions, inferences, ()) =>
    { state, reason, statistics, executions, inferences }

def ModelStatus.format : RecordFormat ModelStatus where
  title := "struct ModelStatus"
  types := [Option Config, Option String, OrderedMap UInt64 VersionStatus]
  fields :=
    .cons
      { name := "config", codec := Config.codec.option, get := (·.config), absent := some none,
        omitted := Option.isNone } <|
    .cons
      { name := "reason", codec := Codec.text.option, get := (·.reason), absent := some none,
        omitted := Option.isNone } <|
    .cons
      { name := "version_status", codec := VersionStatus.format.codec.map .word64,
        get := (·.versions), absent := some .empty } .nil
  build := fun (config, reason, versions, ()) => { config, reason, versions }

namespace ServerStatus

def format : RecordFormat ServerStatus where
  title := "struct ServerStatus"
  types := [String, String, ServerState, UInt64, OrderedMap String ModelStatus]
  fields :=
    .cons { name := "id", codec := .text, get := (·.id) } <|
    .cons { name := "version", codec := .text, get := (·.version) } <|
    .cons { name := "ready_state", codec := ServerState.codec, get := (·.state) } <|
    .cons { name := "uptime_ns", codec := .word64, get := (·.uptime) } <|
    .cons
      { name := "model_status", codec := ModelStatus.format.codec.map .text,
        get := (·.models), absent := some .empty } .nil
  build := fun (id, version, state, uptime, models, ()) => { id, version, state, uptime, models }

def message : Message ServerStatus where
  title := "ServerStatus"
  codec := format.codec

end ServerStatus

end TensorInference.Wire
