import TensorInference.Wire.ServerStatus

/-!
# The status table

The table keeps the state and the request statistics of every discovered model. Its entries are
made when models are loaded; recording a request changes only the entry of a version that is
there.
-/

namespace TensorInference.Server

open Model Wire

abbrev Nanoseconds := Nat

structure Timing where
  /-- From submission to completion. -/
  request : Nanoseconds
  /-- In execution. -/
  compute : Nanoseconds
  /-- Waiting for execution. -/
  queue : Nanoseconds
  deriving DecidableEq, Repr

/-- The state and statistics of every discovered model. -/
structure StatusTable where
  models : OrderedMap String ModelStatus

namespace StatusTable

def empty : StatusTable := ⟨.empty⟩

/-- Enter a model whose versions are about to be loaded. -/
def addModel (table : StatusTable) (name : String) (config : Config) (versions : List UInt64) :
    StatusTable :=
  ⟨table.models.insert name {
    config := some config
    reason := none
    versions := OrderedMap.ofList (versions.map fun version =>
      (version, VersionStatus.initial .loading)) }⟩

/-- Enter a model that has no definition. -/
def addUnavailable (table : StatusTable) (name reason : String) : StatusTable :=
  ⟨table.models.insert name { config := none, reason := some reason, versions := .empty }⟩

/-- Set the state of a version; a model or version that is not there is entered. -/
def setState (table : StatusTable) (name : String) (version : UInt64) (state : VersionState)
    (reason : Option String) : StatusTable :=
  ⟨table.models.upsert name .empty fun model =>
    { model with
      versions := model.versions.upsert version (.initial .unknown) fun status =>
        { status with state, reason } }⟩

def version? (table : StatusTable) (name : String) (version : UInt64) : Option VersionStatus :=
  (table.models.get? name).bind fun model => model.versions.get? version

def state? (table : StatusTable) (name : String) (version : UInt64) : Option VersionState :=
  (table.version? name version).map (·.state)

/-- Whether a model was discovered. -/
def contains (table : StatusTable) (name : String) : Bool :=
  table.models.contains name

def allReady (table : StatusTable) : Bool :=
  table.models.values.all (·.isFullyReady)

/-- Change the statistics of a version that is there. -/
def record (table : StatusTable) (name : String) (version : UInt64)
    (change : VersionStatus → VersionStatus) : StatusTable :=
  ⟨table.models.modify name fun model =>
    { model with versions := model.versions.modify version change }⟩

def recordSuccess (table : StatusTable) (name : String) (version : UInt64) (batch : UInt32)
    (timing : Timing) : StatusTable :=
  table.record name version fun status =>
    { status with
      statistics := status.statistics.upsert batch .zero fun statistics =>
        { statistics with
          success := statistics.success.record timing.request
          compute := statistics.compute.record timing.compute
          queue := statistics.queue.record timing.queue }
      executions := status.executions + 1
      inferences := status.inferences + batch.toUInt64 }

def recordFailure (table : StatusTable) (name : String) (version : UInt64) (batch : UInt32)
    (time : Nanoseconds) : StatusTable :=
  table.record name version fun status =>
    { status with
      statistics := status.statistics.upsert batch .zero fun statistics =>
        { statistics with failed := statistics.failed.record time } }

end StatusTable

end TensorInference.Server
