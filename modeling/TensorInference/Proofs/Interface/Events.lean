import TensorInference.Proofs.Interface.Objects
import TensorInference.Proofs.Interface.Work

/-!
# What happens to the objects

Callers make calls one after the other, and between the calls the servers move on by themselves.
What callers are told of an event is what was written and why it failed. Two courses of events are
compared that differ in one failed call: afterwards all objects are the same, but that one more
failed request may be in the books of one server (`Recounts`), and callers are told the same, but
that the reports of this server are about these books (`Answer.Restates`).
-/

namespace TensorInference.Interface

open Server Inference Wire

/-- What happens to the objects of callers. -/
inductive Event where
  | call (files : Files.Tree) (freshId : String) (call : Call)
  | newError (code : Code) (message : TextArgument)
  | deleteError (error : Option Handle)
  /-- Workers, callbacks and the clock move a server on; no other actions are taken. -/
  | advance (server : Handle) (actions : List Action)

/-- What callers are told of an event. -/
structure Answer where
  written : List Result
  /-- Why a call failed. -/
  error : Option Status

/-- The handle that a result is. -/
def Result.handle? : Result → Option Handle
  | .handle given => some given
  | _ => none

/-- The handles that callers are told. -/
def handlesOf (written : List Result) : List Handle :=
  written.filterMap Result.handle?

namespace Objects

/-- Let a server move on by itself. -/
def advance (objects : Objects) (handle : Handle) (actions : List Action) : Objects :=
  match objects.servers.get? handle with
  | some host => objects.putBack handle { host with
      server := (actions.filter (·.isInternal)).foldl State.attempt host.server }
  | none => objects

/-- The objects after an event. -/
def take (objects : Objects) : Event → Objects
  | .call files freshId call => (objects.call files freshId call).1
  | .newError code message => (objects.newError code message).2
  | .deleteError error => objects.deleteError error
  | .advance server actions => objects.advance server actions

/-- What callers are told of an event. -/
def answer (objects : Objects) : Event → Answer
  | .call files freshId call =>
    let (after, reply) := objects.call files freshId call
    ⟨reply.written, after.error? reply.error⟩
  | .newError code message =>
    let (error, after) := objects.newError code message
    ⟨[], after.error? error⟩
  | .deleteError _ | .advance _ _ => ⟨[], none⟩

/-- The objects after some events. -/
def after (objects : Objects) (events : List Event) : Objects :=
  events.foldl take objects

/-- Servers settle by moving on. -/
theorem exists_settle_eq_advance (objects : Objects) (handle : Handle) :
    ∃ actions, objects.settle handle = objects.advance handle actions := by
  unfold settle advance
  cases objects.servers.get? handle with
  | none => exact ⟨[], rfl⟩
  | some host =>
    obtain ⟨actions, hinternal, hsettle⟩ := State.exists_settle_eq host.server
    refine ⟨actions, ?_⟩
    dsimp only
    rw [hsettle, List.filter_eq_self.2 hinternal]

end Objects

/-- The kinds of objects. -/
inductive Kind where
  | options
  | server
  | request
  | response
  | message
  | error
  deriving DecidableEq, Repr

/-- Whether a handle is that of an object. -/
def Objects.isLive (objects : Objects) : Kind → Handle → Bool
  | .options, handle => (objects.options.get? handle).isSome
  | .server, handle => (objects.servers.get? handle).isSome
  | .request, handle => (objects.requests.get? handle).isSome
  | .response, handle => (objects.responses.get? handle).isSome
  | .message, handle => (objects.messages.get? handle).isSome
  | .error, handle => (objects.errors.get? handle).isSome

/-- A failed request in the books of a server. -/
structure Failure where
  server : Handle
  timer : Timer

/-- The failed request that a call leaves in the books if it fails: it submits a request, and that
has reached a model version. -/
def Objects.failure? (objects : Objects) : Call → Option Failure
  | .infer server request true _ =>
    match objects.servers.find? server, objects.requests.find? request with
    | some (handle, host), some (_, submission) =>
      match host.server.resolve submission.model submission.selector with
      | .ok backend => some ⟨handle, host.server.timer submission backend⟩
      | .error _ => none
    | _, _ => none
  | _ => none

/-- The server of a handle with the failed request in its books, if they are its books. -/
def countFailure (failure : Option Failure) (handle : Handle) (server : State) : State :=
  match failure with
  | some ⟨counted, timer⟩ => if handle = counted then server.recount timer else server
  | none => server

/-- The same of a server that callers hold. -/
def Host.recount (failure : Option Failure) (handle : Handle) (host : Host) : Host :=
  { host with server := countFailure failure handle host.server }

/-- Data that is the same, or that is the same report before and after a failed request. -/
inductive Restated : Option Failure → Bytes → Bytes → Prop
  | same {failure : Option Failure} (data : Bytes) : Restated failure data data
  | status {failure : Failure} (server : State) :
    Restated (some failure) (ServerStatus.message.write server.status)
      (ServerStatus.message.write (server.recount failure.timer).status)
  | modelStatus {failure : Failure} {server : State} {model : String} {report report' : ServerStatus}
    (h : server.modelStatus model = .ok report)
    (h' : (server.recount failure.timer).modelStatus model = .ok report') :
    Restated (some failure) (ServerStatus.message.write report) (ServerStatus.message.write report')
  | metrics {failure : Failure} {server : State} {text text' : String}
    (h : server.metricsText = .ok text)
    (h' : (server.recount failure.timer).metricsText = .ok text') :
    Restated (some failure) (Bytes.ofText text) (Bytes.ofText text')

/-- Results that are the same, or that are about data that is the same in this way. -/
inductive Result.Restated (failure : Option Failure) : Result → Result → Prop
  | same (result : Result) : Restated failure result result
  | base {data data' : Bytes} (h : Interface.Restated failure data data') :
    Restated failure (.base data) (.base data')
  | size {data data' : Bytes} (h : Interface.Restated failure data data') :
    Restated failure (.size data.length) (.size data'.length)

/-- Answers that are the same, but for the contents of reports. -/
structure Answer.Restates (failure : Option Failure) (answer other : Answer) : Prop where
  written : List.Forall₂ (Result.Restated failure) answer.written other.written
  error : other.error = answer.error

/-- Whether a call asks for a report about the books that a failed request is in. -/
def Call.asks (failure : Option Failure) : Call → Bool
  | .serverStatus (some server) _ | .modelStatus (some server) _ _ | .serverMetrics (some server) _ =>
    failure.any (·.server = server)
  | _ => false

/-- Whether an event is such a call. -/
def Event.asks (failure : Option Failure) : Event → Bool
  | .call _ _ made => made.asks failure
  | _ => false

/-- The reports about these books that callers are given. -/
def Objects.reports (failure : Option Failure) (objects : Objects) : List Event → List Handle
  | [] => []
  | event :: rest =>
    (if event.asks failure then handlesOf (objects.answer event).written else []) ++
      (objects.take event).reports failure rest

/-- Objects that are the same, but that there is one more failed request in the books of one server,
and in the reports that were asked of it; errors are the same below a bound. -/
structure Recounts (failure : Option Failure) (bound : Handle) (reports : List Handle)
    (objects other : Objects) : Prop where
  options : other.options = objects.options
  requests : other.requests = objects.requests
  responses : other.responses = objects.responses
  callbacks : other.callbacks = objects.callbacks
  servers : ∀ handle, other.servers.get? handle =
    (objects.servers.get? handle).map (·.recount failure handle)
  nextServer : other.servers.next = objects.servers.next
  messages : ∀ handle, Option.Rel (Restated failure) (objects.messages.get? handle)
    (other.messages.get? handle)
  others : ∀ handle, handle ∉ reports →
    other.messages.get? handle = objects.messages.get? handle
  nextMessage : other.messages.next = objects.messages.next
  errors : ∀ handle < bound, other.errors.get? handle = objects.errors.get? handle

end TensorInference.Interface
