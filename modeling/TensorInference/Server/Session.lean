import TensorInference.Server.Action

/-!
# Sessions

A session drives a server from one caller: it submits, lets the server settle and stops it. The
server has settled when nothing is left to be done but what waits for the outside. Settling takes
the actions of workers and callbacks in a fixed order; their number is bounded by what is in
traffic, since a job in each stage has only so many stages before it.
-/

namespace TensorInference.Server.State

open Inference

def attempt (server : State) (action : Action) : State :=
  (server.act action).getD server

/-- The loaded model versions that have a job waiting and a worker free. -/
def startable (server : State) : List Backend :=
  (server.backends.values.flatMap (·.values)).filter fun backend => (server.start backend).isSome

def nextAction? (server : State) : Option Action :=
  let traffic := server.traffic
  let leave := traffic.leaving.head?.map Action.leave
  let deliver := (traffic.outbox.find? fun completion =>
    traffic.watched.contains completion.ticket).map fun completion =>
      Action.deliver completion.ticket
  let work := (traffic.running.find? fun execution =>
    match execution.program with
    | .wait _ => false
    | _ => true).map fun execution => Action.work execution.job.ticket
  let start := server.startable.head?.map fun backend =>
    Action.start backend.name backend.version
  leave.or (deliver.or (work.or start))

def settleWithin (server : State) : Nat → State
  | 0 => server
  | fuel + 1 =>
    match server.nextAction?.bind server.act with
    | some server => settleWithin server fuel
    | none => server

/-- How many actions the traffic can still take by itself. -/
def pendingActions (server : State) : Nat :=
  let traffic := server.traffic
  4 * traffic.waiting.length + 3 * traffic.running.length + 2 * traffic.outbox.length +
    traffic.leaving.length

/-- Let workers and callbacks do what they can. -/
def settle (server : State) : State :=
  server.settleWithin server.pendingActions

/-- Submit under a new ticket; the submission is answered when it is refused or watched. A refusal
is answered and not kept. -/
def submit (server : State) (ticket : Ticket) (submission : Submission) :
    State × Except Status Unit :=
  let server := [Action.enter ticket submission, .check ticket, .accept ticket, .watch ticket].foldl
    attempt server
  match server.traffic.refused? ticket with
  | some status => ({ server with traffic := server.traffic.forget ticket }, .error status)
  | none => (server, .ok ())

/-- Close the server and let it settle; it is drained if nothing is in flight then. -/
def close (server : State) : State :=
  let closed := [Action.beginStop, .announce, .close].foldl attempt server
  closed.settle.attempt .observeIdle

/-- Stop the server; what does not complete is given up. Only the first to stop a server waits for
it: whoever comes later changes nothing, even while the server is still draining. -/
def stop (server : State) : State :=
  if server.phase = .serving then server.close.attempt .giveUp else server

/-- Go on with the job that waits longest for the outside. -/
def resumeFirst (server : State) : State :=
  match server.traffic.running.find? fun execution =>
    match execution.program with
    | .wait _ => true
    | _ => false with
  | some execution => (server.attempt (.resume execution.job.ticket)).settle
  | none => server

end TensorInference.Server.State
