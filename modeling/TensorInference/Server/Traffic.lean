import TensorInference.Inference.Submission
import TensorInference.Platform.Program
import TensorInference.Server.Timer

/-!
# Traffic

Submissions pass through the server in stages. A caller first enters, is checked and admitted, and
has its completion watched; meanwhile its job waits, is executed and is completed. A completed job
whose completion is watched is delivered by running its callback, and after that its caller leaves.
A submission that is refused on the way in has no job and is never delivered.

Every list is in the order in which its members came, so jobs of one backend wait in the order of
their admission. A submission is known by its ticket.
-/

namespace TensorInference.Server

open Model Inference

abbrev Ticket := Nat

inductive Arrival where
  /-- The submission is counted as in flight. -/
  | entered
  /-- The server was found open. -/
  | passed
  /-- The job waits, and its completion is not yet watched. -/
  | queued
  deriving DecidableEq, Repr

/-- A submission on its way in. -/
structure Entrant where
  ticket : Ticket
  submission : Submission
  arrival : Arrival

structure Job where
  ticket : Ticket
  request : Request
  response : Response
  timer : Timer

def Job.isFor (job : Job) (model : String) (version : UInt64) : Bool :=
  job.request.model = model && job.request.version = version

/-- A job in execution, with what is left to be done. -/
structure Execution where
  job : Job
  program : Platform.Program

structure Completion where
  ticket : Ticket
  status : Except Status Unit
  response : Response

namespace Completion

/-- The header of a response; a failed request has none. -/
def header (completion : Completion) : Except Status Wire.ResponseHeader := do
  completion.status
  return completion.response.header

def output (completion : Completion) (name : String) : Except Status Bytes := do
  completion.status
  completion.response.output name

end Completion

structure Traffic where
  /-- On the way in. -/
  entrants : List Entrant := []
  waiting : List Job := []
  running : List Execution := []
  /-- Completed and not yet delivered. -/
  outbox : List Completion := []
  /-- Submissions whose completion is watched. -/
  watched : List Ticket := []
  /-- Delivered, with the caller still counted as in flight. -/
  leaving : List Ticket := []
  /-- How many submissions are counted as in flight. -/
  inFlight : Nat := 0
  /-- Refused on the way in, and why. -/
  refused : List (Ticket × Status) := []
  /-- What callbacks were run with. -/
  delivered : List Completion := []

namespace Traffic

def waitingFor (traffic : Traffic) (model : String) (version : UInt64) : Nat :=
  traffic.waiting.countP (·.isFor model version)

def busyFor (traffic : Traffic) (model : String) (version : UInt64) : Nat :=
  traffic.running.countP (·.job.isFor model version)

def entrant? (traffic : Traffic) (ticket : Ticket) (arrival : Arrival) : Option Entrant :=
  traffic.entrants.find? fun entrant => entrant.ticket = ticket && entrant.arrival = arrival

def advance (traffic : Traffic) (ticket : Ticket) (arrival : Arrival) : Traffic :=
  { traffic with
    entrants := traffic.entrants.map fun entrant =>
      if entrant.ticket = ticket then { entrant with arrival } else entrant }

def enter (traffic : Traffic) (ticket : Ticket) (submission : Submission) : Traffic :=
  { traffic with
    entrants := traffic.entrants ++ [⟨ticket, submission, .entered⟩]
    inFlight := traffic.inFlight + 1 }

def refuse (traffic : Traffic) (ticket : Ticket) (status : Status) : Traffic :=
  { traffic with
    entrants := traffic.entrants.filter (·.ticket ≠ ticket)
    inFlight := traffic.inFlight - 1
    refused := traffic.refused ++ [(ticket, status)] }

/-- Keep nothing of a submission that was refused. -/
def forget (traffic : Traffic) (ticket : Ticket) : Traffic :=
  { traffic with refused := traffic.refused.filter (·.1 ≠ ticket) }

def enqueue (traffic : Traffic) (job : Job) : Traffic :=
  { traffic.advance job.ticket .queued with waiting := traffic.waiting ++ [job] }

def watch (traffic : Traffic) (ticket : Ticket) : Traffic :=
  { traffic with
    entrants := traffic.entrants.filter (·.ticket ≠ ticket)
    watched := traffic.watched ++ [ticket] }

def start (traffic : Traffic) (job : Job) (program : Platform.Program) : Traffic :=
  { traffic with
    waiting := traffic.waiting.filter (·.ticket ≠ job.ticket)
    running := traffic.running ++ [⟨job, program⟩] }

def proceed (traffic : Traffic) (execution : Execution) : Traffic :=
  { traffic with
    running := traffic.running.map fun other =>
      if other.job.ticket = execution.job.ticket then execution else other }

def complete (traffic : Traffic) (completion : Completion) : Traffic :=
  { traffic with
    running := traffic.running.filter (·.job.ticket ≠ completion.ticket)
    outbox := traffic.outbox ++ [completion] }

def deliver (traffic : Traffic) (completion : Completion) : Traffic :=
  { traffic with
    outbox := traffic.outbox.filter (·.ticket ≠ completion.ticket)
    watched := traffic.watched.filter (· ≠ completion.ticket)
    leaving := traffic.leaving ++ [completion.ticket]
    delivered := traffic.delivered ++ [completion] }

/-- Count a delivered submission as in flight no longer. -/
def leave (traffic : Traffic) (ticket : Ticket) : Traffic :=
  { traffic with
    leaving := traffic.leaving.filter (· ≠ ticket)
    inFlight := traffic.inFlight - 1 }

def unfinished (traffic : Traffic) : List Job :=
  traffic.running.map (·.job) ++ traffic.waiting

/-- Give up whatever is not delivered; those on their way in are still to be answered. -/
def abandon (traffic : Traffic) : Traffic :=
  { traffic with
    waiting := []
    running := []
    outbox := []
    watched := []
    inFlight := traffic.inFlight - traffic.watched.length }

/-- What the callback of a submission was run with. -/
def delivered? (traffic : Traffic) (ticket : Ticket) : Option Completion :=
  traffic.delivered.find? (·.ticket = ticket)

def refused? (traffic : Traffic) (ticket : Ticket) : Option Status :=
  (traffic.refused.find? (·.1 = ticket)).map (·.2)

end Traffic

end TensorInference.Server
