import TensorInference.Server.Backend
import TensorInference.Server.Options
import TensorInference.Server.Traffic

/-!
# The server

A server is created over a repository: every version that a model's policy selects is loaded, and
what cannot be loaded is entered in the status table with the reason. From then on the loaded
versions stay the same; requests change the books and the traffic, and stopping moves the phase
forward and never back.
-/

namespace TensorInference.Server

open Model Files Wire

/-- How far a server is on its way from service to rest. -/
inductive Phase where
  | serving
  /-- Somebody has begun to stop the server. -/
  | stopping
  /-- The server reports that it is exiting. -/
  | announced
  /-- New submissions are refused. -/
  | closed
  /-- Nothing was in flight after closing. -/
  | drained
  /-- What was in flight was given up. -/
  | abandoned
  deriving DecidableEq, Repr

namespace Phase

def state : Phase → ServerState
  | .serving | .stopping => .ready
  | .announced | .closed | .drained | .abandoned => .exiting

def isClosed : Phase → Bool
  | .serving | .stopping | .announced => false
  | .closed | .drained | .abandoned => true

end Phase

abbrev Backends := OrderedMap String (OrderedMap UInt64 Backend)

structure State where
  id : String
  options : Options
  backends : Backends
  books : Books
  traffic : Traffic := {}
  phase : Phase := .serving
  /-- The time since the server was created. -/
  now : Nanoseconds := 0

structure Loaded where
  backends : Backends
  books : Books

namespace Loaded

/-- Load one version of a model and enter its state. -/
def addVersion (files : Tree) (registry : Platform.Registry) (metered : Bool)
    (definition : Definition) (loaded : Loaded) (version : UInt64) : Loaded :=
  let name := definition.name
  match Backend.load files registry metered definition version with
  | .ok backend => {
      backends := loaded.backends.upsert name .empty (·.insert version backend)
      books := {
        status := loaded.books.status.setState name version .ready none
        metrics :=
          if metered then loaded.books.metrics.expose ⟨name, version⟩ else loaded.books.metrics } }
  | .error status => {
      loaded with
      books := {
        loaded.books with
        status :=
          loaded.books.status.setState name version .unavailable (some status.message) } }

def addModel (files : Tree) (registry : Platform.Registry) (metered : Bool) (loaded : Loaded)
    (model : Discovered) : Loaded :=
  match model.definition with
  | .error status => {
      loaded with
      books := {
        loaded.books with
        status := loaded.books.status.addUnavailable model.name status.message } }
  | .ok definition =>
    let entered := {
      loaded with
      books := {
        loaded.books with
        status := loaded.books.status.addModel definition.name definition.config
          definition.versions } }
    definition.versions.foldl (addVersion files registry metered definition) entered

end Loaded

namespace State

/-- Create a server; `freshId` is its name if the options give none. -/
def create (files : Tree) (registry : Platform.Registry) (freshId : String) (options : Options) :
    Except Status State := do
  let models ← Repository.scan files options.repository
  let loaded := models.foldl (Loaded.addModel files registry options.metrics) ⟨.empty, .empty⟩
  return {
    id := if options.id = "" then freshId else options.id
    options
    backends := loaded.backends
    books := loaded.books }

def programVersion : String := "0.1.0"

def isLive (server : State) : Bool :=
  server.phase.state.isLive

def isReady (server : State) : Bool :=
  server.phase.state = .ready && !server.backends.isEmpty &&
    (!server.options.strictReadiness || server.books.status.allReady)

def modelNotFound (model : String) : Status :=
  .notFound s!"model '{model}' is not found"

def report (server : State) (models : OrderedMap String ModelStatus) : ServerStatus where
  id := server.id
  version := programVersion
  state := server.phase.state
  uptime := UInt64.ofNat (min server.now (UInt64.size - 1))
  models

def status (server : State) : ServerStatus :=
  server.report server.books.status.models

def modelStatus (server : State) (model : String) : Except Status ServerStatus :=
  match server.books.status.models.get? model with
  | some status => .ok (server.report (.singleton model status))
  | none => .error (modelNotFound model)

def metricsText (server : State) : Except Status String :=
  if server.options.metrics then .ok server.books.metrics.text
  else .error (.unsupported "metrics are disabled for this server")

/-- The backend that serves a model, for a version or for the latest one. -/
def resolve (server : State) (model : String) (selector : Int64) : Except Status Backend :=
  if ¬ server.books.status.contains model then .error (modelNotFound model)
  else
    let versions := (server.backends.get? model).getD .empty
    if selector < 0 then
      match versions.last? with
      | some backend => .ok backend
      | none => .error (.notFound s!"model '{model}' has no ready versions")
    else
      let version := selector.toUInt64
      let number := version.toNat
      match versions.get? version, server.books.status.state? model version with
      | some backend, _ => .ok backend
      | none, some state =>
        .error (.unavailable
          (s!"version {number} of model '{model}' is not ready (" ++ state.title ++ ")"))
      | none, none => .error (.notFound s!"version {number} of model '{model}' is not found")

def describe (server : State) : String :=
  "InferenceServer \x7b id: " ++ Text.quoted server.id ++ ", state: " ++
    server.phase.state.title ++ ", models: " ++
    Text.bracketed (server.backends.keys.map Text.quoted) ++ " \x7d"

end State

end TensorInference.Server
