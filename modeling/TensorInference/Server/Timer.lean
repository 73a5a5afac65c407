import TensorInference.Server.Metrics

/-!
# Request timers

A timer follows one request from its submission to its end and records it once: as a success with
its times, or as a failure. A request that never reaches a model version is not recorded, and a
timer that is given up before its end records a failure.
-/

namespace TensorInference.Server

/-- Where requests are recorded: in the status table, and in the metrics if the request has a
label. -/
structure Books where
  status : StatusTable
  metrics : Metrics

structure Timer where
  model : String
  /-- The version that serves the request, once it is known. -/
  version : Option UInt64 := none
  /-- The counters that the request is counted in besides. -/
  label : Option Label := none
  batch : UInt32 := 0
  start : Nanoseconds
  computeStart : Option Nanoseconds := none
  computeEnd : Option Nanoseconds := none
  finished : Bool := false
  deriving DecidableEq, Repr

namespace Books

def empty : Books := ⟨.empty, .empty⟩

def recordSuccess (books : Books) (timer : Timer) (version : UInt64) (timing : Timing) : Books where
  status := books.status.recordSuccess timer.model version timer.batch timing
  metrics := match timer.label with
    | some label => books.metrics.recordSuccess label timer.batch timing
    | none => books.metrics

def recordFailure (books : Books) (timer : Timer) (version : UInt64) (time : Nanoseconds) :
    Books where
  status := books.status.recordFailure timer.model version timer.batch time
  metrics := match timer.label with
    | some label => books.metrics.recordFailure label time
    | none => books.metrics

end Books

namespace Timer

/-- Note the version that serves the request, and the counters it is counted in. -/
def setVersion (timer : Timer) (version : UInt64) (label : Option Label) : Timer :=
  { timer with version := some version, label }

def setBatch (timer : Timer) (batch : UInt32) : Timer :=
  { timer with batch }

def startCompute (timer : Timer) (now : Nanoseconds) : Timer :=
  { timer with computeStart := some now }

def endCompute (timer : Timer) (now : Nanoseconds) : Timer :=
  { timer with computeEnd := some now }

/-- The times of a request that ends now; what was not measured ends with the request. -/
def timing (timer : Timer) (now : Nanoseconds) : Timing where
  request := now - timer.start
  compute := timer.computeEnd.getD now - timer.computeStart.getD now
  queue := timer.computeStart.getD now - timer.start

/-- End the request and record it, unless it ended before. -/
def finish (timer : Timer) (success : Bool) (now : Nanoseconds) (books : Books) : Timer × Books :=
  if timer.finished then (timer, books)
  else
    ({ timer with finished := true },
      match timer.version with
      | none => books
      | some version =>
        if success then books.recordSuccess timer version (timer.timing now)
        else books.recordFailure timer version (now - timer.start))

/-- Give a timer up. -/
def drop (timer : Timer) (now : Nanoseconds) (books : Books) : Books :=
  (timer.finish false now books).2

end Timer

end TensorInference.Server
