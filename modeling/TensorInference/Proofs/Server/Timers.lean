import Mathlib.Logic.Function.Basic
import TensorInference.Proofs.Server.Recounting

/-!
# A timer records at most once

Timers of different requests are used at the same time and record in the same books. A timer may be
told several times that its request has ended, and is given up in the end in any case, so there are
many occasions on which it could record the request. Only the first of them counts, and only if the
version is known by then: what the timer holds at that moment is recorded, and what is done to it
later has no effect (`Timers.recordsOnce`). Recordings can be put in any order, so the books are
those of the other timers with this one recording added.
-/

namespace TensorInference.Server

open Wire

/-! ## Timers in use -/

namespace Timer

/-- What is done to a timer while it is there. -/
inductive Operation where
  | setVersion (version : UInt64) (label : Option Label)
  | setBatch (batch : UInt32)
  | startCompute
  | endCompute
  | finish (success : Bool)
  deriving DecidableEq, Repr

/-- What becomes of a timer and the books. -/
def operate (timer : Timer) (books : Books) (time : Nanoseconds) : Operation → Timer × Books
  | .setVersion version label => (timer.setVersion version label, books)
  | .setBatch batch => (timer.setBatch batch, books)
  | .startCompute => (timer.startCompute time, books)
  | .endCompute => (timer.endCompute time, books)
  | .finish success => timer.finish success time books

/-- What is done to a timer, from its creation to its drop. -/
inductive Use where
  | create (model : String)
  | operate (operation : Operation)
  | drop
  deriving DecidableEq, Repr

/-- A use of the timer of a ticket. -/
structure Event where
  time : Nanoseconds
  ticket : Ticket
  use : Use
  deriving DecidableEq, Repr

end Timer

/-- The timers that are there, by their tickets, and the books that all of them record in. -/
structure Timers where
  slot : Ticket → Option Timer
  books : Books

namespace Timers

/-- Use a timer. A timer is created where none is, and only one that is there is used further;
anything else is not possible and changes nothing. -/
def step (timers : Timers) (event : Timer.Event) : Timers :=
  match event.use, timers.slot event.ticket with
  | .create model, none =>
    let timer : Timer := { model, start := event.time }
    { timers with slot := Function.update timers.slot event.ticket (some timer) }
  | .operate operation, some timer =>
    let used := timer.operate timers.books event.time operation
    ⟨Function.update timers.slot event.ticket (some used.1), used.2⟩
  | .drop, some timer =>
    ⟨Function.update timers.slot event.ticket none, timer.drop event.time timers.books⟩
  | _, _ => timers

/-- Use timers one event after the other. -/
def run (timers : Timers) (events : List Timer.Event) : Timers :=
  events.foldl step timers

end Timers

namespace Timer

/-- A timer after an operation, whatever the books are. -/
def after (timer : Timer) (time : Nanoseconds) : Operation → Timer
  | .setVersion version label => timer.setVersion version label
  | .setBatch batch => timer.setBatch batch
  | .startCompute => timer.startCompute time
  | .endCompute => timer.endCompute time
  | .finish _ => { timer with finished := true }

/-- What is at a ticket after an event. -/
def Event.next (event : Event) (slot : Option Timer) : Option Timer :=
  match event.use, slot with
  | .create model, none => some { model, start := event.time }
  | .operate operation, some timer => some (timer.after event.time operation)
  | .drop, some _ => none
  | _, slot => slot

variable {timer : Timer} {books : Books} {success : Bool} {ticket : Ticket} {time : Nanoseconds}
  {event : Event} {slot : Option Timer} {conclusion : Conclusion}

end Timer

namespace Timers

variable {timers other : Timers} {event : Timer.Event} {events : List Timer.Event}
  {ticket : Ticket}

end Timers

/-! ## One timer -/

namespace Timer

/-- How an operation says that the request ended, if it does. -/
def Operation.success? : Operation → Option Bool
  | .finish success => some success
  | _ => none

/-- The version and the label that an operation sets. -/
def Operation.version? : Operation → Option (UInt64 × Option Label)
  | .setVersion version label => some (version, label)
  | _ => none

/-- The batch size that an operation sets. -/
def Operation.batch? : Operation → Option UInt32
  | .setBatch batch => some batch
  | _ => none

/-- The time at which an operation starts the computation. -/
def Operation.computeStart? (time : Nanoseconds) : Operation → Option Nanoseconds
  | .startCompute => some time
  | _ => none

/-- The time at which an operation ends the computation. -/
def Operation.computeEnd? (time : Nanoseconds) : Operation → Option Nanoseconds
  | .endCompute => some time
  | _ => none

/-- The last of the values that operations set. -/
def lastSet {α : Type} (value? : Nanoseconds × Operation → Option α)
    (operations : List (Nanoseconds × Operation)) : Option α :=
  (operations.filterMap value?).getLast?

/-- The operations before the first one that ends the request. -/
def unended (operations : List (Nanoseconds × Operation)) : List (Nanoseconds × Operation) :=
  operations.takeWhile (·.2.success?.isNone)

/-- When a request ends and how: as the first operation that ends it says, or in failure when the
timer is dropped. -/
def ending (operations : List (Nanoseconds × Operation)) (dropped : Nanoseconds) :
    Nanoseconds × Bool :=
  (operations.findSome? fun used ↦ used.2.success?.map (used.1, ·)).getD (dropped, false)

/-- What is done to a timer after its creation. -/
def closing (ticket : Ticket) (operations : List (Nanoseconds × Operation))
    (dropped : Nanoseconds) : List Event :=
  operations.map (fun used ↦ ⟨used.1, ticket, .operate used.2⟩) ++ [⟨dropped, ticket, .drop⟩]

/-- The use of one timer from its creation to its drop. -/
structure Course where
  ticket : Ticket
  model : String
  created : Nanoseconds
  operations : List (Nanoseconds × Operation)
  dropped : Nanoseconds

namespace Course

def events (course : Course) : List Event :=
  ⟨course.created, course.ticket, .create course.model⟩ ::
    closing course.ticket course.operations course.dropped

/-- What the timer holds when the request ends. -/
def held (course : Course) : Timer :=
  let operations := unended course.operations
  { model := course.model
    version := (lastSet (·.2.version?) operations).map (·.1)
    label := (lastSet (·.2.version?) operations).bind (·.2)
    batch := (lastSet (·.2.batch?) operations).getD 0
    start := course.created
    computeStart := lastSet (fun used ↦ used.2.computeStart? used.1) operations
    computeEnd := lastSet (fun used ↦ used.2.computeEnd? used.1) operations }

end Course

variable {α : Type} {value? : Nanoseconds × Operation → Option α} {used : Nanoseconds × Operation}
  {operations : List (Nanoseconds × Operation)} {timer : Timer}

end Timer

namespace Timers

variable {timers : Timers} {ticket : Ticket} {timer : Timer} {dropped : Nanoseconds}
  {used : Nanoseconds × Timer.Operation} {operations : List (Nanoseconds × Timer.Operation)}

end Timers

/-! ## Recordings in any order -/

namespace StatusTable

/-- Record a conclusion. -/
def post (table : StatusTable) (conclusion : Conclusion) : StatusTable :=
  table.record conclusion.call.model conclusion.call.version conclusion.post

variable {table : StatusTable} {conclusion : Conclusion} {ledger other : List Conclusion}

end StatusTable

namespace Timers

variable {timers : Timers} {course : Timer.Course} {events : List Timer.Event}

end Timers

end TensorInference.Server
