import TensorInference.Server.State

/-!
# Actions

A server moves by single actions: those of callers on their way in, those of workers, those of the
callbacks and those of whoever stops the server. Each action is a partial function on states, which
has no answer where the action cannot be taken. Any number of callers, workers and callbacks may be
interleaved in any order, so statements about all runs are statements about sequences of actions.
-/

namespace TensorInference.Server

open Model Inference

/-- What can happen to a server. -/
inductive Action where
  /-- A caller comes with a submission. -/
  | enter (ticket : Ticket) (submission : Submission)
  /-- A caller looks whether the server is closed. -/
  | check (ticket : Ticket)
  /-- A caller's submission is admitted or refused. -/
  | accept (ticket : Ticket)
  /-- The completion of a caller's submission is watched from now on. -/
  | watch (ticket : Ticket)
  /-- A free worker takes the first job that waits for its model version. -/
  | start (model : String) (version : UInt64)
  /-- A worker goes on with a job until it ends or waits. -/
  | work (ticket : Ticket)
  /-- What a job in execution waits for has come. -/
  | resume (ticket : Ticket)
  /-- The callback of a completed job runs. -/
  | deliver (ticket : Ticket)
  /-- A caller whose callback has run is in flight no longer. -/
  | leave (ticket : Ticket)
  | beginStop
  /-- The server reports that it is exiting. -/
  | announce
  /-- New submissions are refused from now on. -/
  | close
  /-- Nothing is in flight after closing. -/
  | observeIdle
  /-- Waiting for what is in flight is given up. -/
  | giveUp
  | pass (time : Nanoseconds)

def dropTimers (now : Nanoseconds) (books : Books) (jobs : List Job) : Books :=
  jobs.foldl (fun books job => job.timer.drop now books) books

/-- How a job ends: its response is described if the execution succeeded, and otherwise nothing of
it is kept. -/
def Job.conclude (job : Job) (response : Response) (outcome : Except Status Unit) :
    Completion :=
  let ticket := job.ticket
  match outcome.bind fun () => response.finalize with
  | .ok response => { ticket, status := .ok (), response }
  | .error status => { ticket, status := .error status, response := response.clear }

def crashStatus (model : String) (message : Option String) : Status :=
  .internal
    (s!"model '{model}' panicked during execution: " ++ message.getD "unknown panic")

namespace State

/-- Refuse a submission on its way in and give its timer up. -/
def refuse (server : State) (ticket : Ticket) (timer : Timer) (status : Status) : State :=
  { server with
    books := timer.drop server.now server.books
    traffic := server.traffic.refuse ticket status }

def isFull (server : State) (backend : Backend) : Bool :=
  max 1 server.options.queueCapacity.toNat ≤
    server.traffic.waitingFor backend.name backend.version

/-- Let a request wait for its backend, if there is room. -/
def enqueue (server : State) (backend : Backend) (job : Job) : State :=
  let model := backend.name
  let version := backend.version.toNat
  if server.phase = .abandoned then
    server.refuse job.ticket job.timer
      (.unavailable s!"model '{model}' version {version} is no longer accepting requests")
  else if server.isFull backend then
    server.refuse job.ticket job.timer
      (.unavailable s!"request queue for model '{model}' version {version} is full")
  else { server with traffic := server.traffic.enqueue job }

def accept (server : State) (ticket : Ticket) (submission : Submission) : State :=
  let timer : Timer := { model := submission.model, start := server.now }
  match server.resolve submission.model submission.selector with
  | .error status => server.refuse ticket timer status
  | .ok backend =>
    let label := if backend.metered then some ⟨backend.name, backend.version⟩ else none
    let timer := (timer.setVersion backend.version label).setBatch submission.header.batch
    match backend.prepare submission with
    | .error status => server.refuse ticket timer status
    | .ok (request, response) => server.enqueue backend { ticket, request, response, timer }

def backend? (server : State) (model : String) (version : UInt64) : Option Backend :=
  (server.backends.get? model).bind (·.get? version)

/-- Give the first job that waits for a backend to a free worker. -/
def start (server : State) (backend : Backend) : Option State :=
  if server.traffic.busyFor backend.name backend.version < backend.workers then
    (server.traffic.waiting.find? (·.isFor backend.name backend.version)).map fun job =>
      let timed := { job with timer := job.timer.startCompute server.now }
      { server with traffic := server.traffic.start timed (backend.executor job.request) }
  else none

def conclude (server : State) (job : Job) (response : Response) (outcome : Except Status Unit) :
    State :=
  let completion := job.conclude response outcome
  let timer := job.timer.endCompute server.now
  { server with
    books := (timer.finish completion.status.isOk server.now server.books).2
    traffic := server.traffic.complete completion }

/-- Go on with a job until it ends or waits. -/
def work (server : State) (execution : Execution) : State :=
  let job := execution.job
  let (response, pause) := execution.program.advance job.response
  match pause with
  | .finished outcome => server.conclude job response outcome
  | .crashed message => server.conclude job response (.error (crashStatus job.request.model message))
  | .waiting next =>
    { server with traffic := server.traffic.proceed ⟨{ job with response }, .wait next⟩ }

def act (server : State) : Action → Option State
  | .enter ticket submission =>
    some { server with traffic := server.traffic.enter ticket submission }
  | .check ticket =>
    (server.traffic.entrant? ticket .entered).map fun _ =>
      if server.phase.isClosed then
        { server with
          traffic := server.traffic.refuse ticket (.unavailable "server is shutting down") }
      else { server with traffic := server.traffic.advance ticket .passed }
  | .accept ticket =>
    (server.traffic.entrant? ticket .passed).map fun entrant =>
      server.accept ticket entrant.submission
  | .watch ticket =>
    (server.traffic.entrant? ticket .queued).map fun _ =>
      let watched := server.traffic.watch ticket
      { server with
        traffic := if server.phase = .abandoned then watched.abandon else watched }
  | .start model version => (server.backend? model version).bind server.start
  | .work ticket =>
    match server.traffic.running.find? (·.job.ticket = ticket) with
    | none | some ⟨_, .wait _⟩ => none
    | some execution => some (server.work execution)
  | .resume ticket =>
    match server.traffic.running.find? (·.job.ticket = ticket) with
    | some ⟨job, .wait next⟩ => some { server with traffic := server.traffic.proceed ⟨job, next⟩ }
    | _ => none
  | .deliver ticket =>
    if server.traffic.watched.contains ticket then
      (server.traffic.outbox.find? (·.ticket = ticket)).map fun completion =>
        { server with traffic := server.traffic.deliver completion }
    else none
  | .leave ticket =>
    if server.traffic.leaving.contains ticket then
      some { server with traffic := server.traffic.leave ticket }
    else none
  | .beginStop => if server.phase = .serving then some { server with phase := .stopping } else none
  | .announce =>
    if server.phase = .stopping then some { server with phase := .announced } else none
  | .close => if server.phase = .announced then some { server with phase := .closed } else none
  | .observeIdle =>
    if server.phase = .closed ∧ server.traffic.inFlight = 0 then
      some { server with phase := .drained }
    else none
  | .giveUp =>
    if server.phase = .closed then
      some {
        server with
        phase := .abandoned
        books := dropTimers server.now server.books server.traffic.unfinished
        traffic := server.traffic.abandon }
    else none
  | .pass time => some { server with now := server.now + time }

def run (server : State) : List Action → Option State
  | [] => some server
  | action :: rest => (server.act action).bind fun server => run server rest

end State

end TensorInference.Server
