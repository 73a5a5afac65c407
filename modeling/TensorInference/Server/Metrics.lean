import TensorInference.Binary.Shortest
import TensorInference.Bytes.Fingerprint
import TensorInference.Json.Numeral
import TensorInference.OrderedMap
import TensorInference.Server.StatusTable

/-!
# Metrics

Metrics count requests and times for every served model version since the server was created, and
are exposed as text for monitoring: one family of lines for each counter, one line for each series,
all in the order of their names as texts. A series is found by the fingerprint of its label, whose
model name and version text are taken in as one run of text: labels that read alike in this way
share the series of the label that came first, and only that label is exposed. Times are counted in
whole microseconds, and a value is written as the nearest double-precision number.
-/

namespace TensorInference.Server

structure Counters where
  success : UInt64 := 0
  failure : UInt64 := 0
  inferences : UInt64 := 0
  executions : UInt64 := 0
  requestTime : UInt64 := 0
  computeTime : UInt64 := 0
  queueTime : UInt64 := 0
  deriving DecidableEq, Repr

/-- The model version that counters belong to. -/
structure Label where
  model : String
  version : UInt64
  deriving DecidableEq, Repr

namespace Label

def versionText (label : Label) : String :=
  toString label.version.toNat

/-- What a series is found by. -/
def fingerprint (label : Label) : UInt64 :=
  Bytes.fingerprint (Bytes.ofText label.model ++ Bytes.ofText label.versionText)

/-- The order of labels: by the name of the model, then by the text of the version. -/
def order (a b : Label) : Ordering :=
  (compare a.model b.model).then (compare a.versionText b.versionText)

end Label

/-- Counters under the label that they were first asked for. -/
structure Series where
  label : Label
  counters : Counters := {}
  deriving DecidableEq, Repr

/-- The counters of all model versions, by the fingerprints of their labels. -/
structure Metrics where
  series : OrderedMap UInt64 Series

namespace Metrics

def empty : Metrics := ⟨.empty⟩

def counters? (metrics : Metrics) (label : Label) : Option Counters :=
  (metrics.series.get? label.fingerprint).map (·.counters)

/-- Change the counters of a model version, starting from zero. -/
def update (metrics : Metrics) (label : Label) (change : Counters → Counters) : Metrics :=
  ⟨metrics.series.upsert label.fingerprint { label } fun series =>
    { series with counters := change series.counters }⟩

/-- Expose the counters of a model version, at zero if they are new. -/
def expose (metrics : Metrics) (label : Label) : Metrics :=
  metrics.update label id

def microseconds (time : Nanoseconds) : UInt64 :=
  UInt64.ofNat (time / 1000)

def recordSuccess (metrics : Metrics) (label : Label) (batch : UInt32) (timing : Timing) :
    Metrics :=
  metrics.update label fun counters =>
    { counters with
      success := counters.success + 1
      executions := counters.executions + 1
      inferences := counters.inferences + batch.toUInt64
      requestTime := counters.requestTime + microseconds timing.request
      computeTime := counters.computeTime + microseconds timing.compute
      queueTime := counters.queueTime + microseconds timing.queue }

def recordFailure (metrics : Metrics) (label : Label) (time : Nanoseconds) : Metrics :=
  metrics.update label fun counters =>
    { counters with
      failure := counters.failure + 1
      requestTime := counters.requestTime + microseconds time }

structure Family where
  name : String
  help : String
  value : Counters → UInt64

def families : List Family := [
  ⟨"tserve_inference_compute_duration_us",
    "Cumulative inference compute duration in microseconds", (·.computeTime)⟩,
  ⟨"tserve_inference_count",
    "Number of inferences performed, counting each batch item", (·.inferences)⟩,
  ⟨"tserve_inference_exec_count", "Number of model executions performed", (·.executions)⟩,
  ⟨"tserve_inference_queue_duration_us",
    "Cumulative inference queuing duration in microseconds", (·.queueTime)⟩,
  ⟨"tserve_inference_request_duration_us",
    "Cumulative inference request duration in microseconds", (·.requestTime)⟩,
  ⟨"tserve_inference_request_failure", "Number of failed inference requests", (·.failure)⟩,
  ⟨"tserve_inference_request_success", "Number of successful inference requests", (·.success)⟩]

def labelText (value : String) : String :=
  "\"" ++ String.ofList (value.toList.flatMap fun c =>
    if c = '\\' then ['\\', '\\']
    else if c = '"' then ['\\', '"']
    else if c = '\n' then ['\\', 'n']
    else [c]) ++ "\""

/-- The text of a counter: the nearest double-precision number without exponent. -/
def valueText (value : UInt64) : String :=
  match Binary.double.unpack (Binary.double.ofNat value.toNat) with
  | .finite _ significand exponent =>
    if significand = 0 then "0"
    else
      let decimal := Binary.double.shortest significand exponent
      toString (decimal.digits * Nat.pow 10 decimal.exponent.toNat)
  | _ => ""

def listed (metrics : Metrics) : List Series :=
  metrics.series.values.mergeSort fun a b => (a.label.order b.label).isLE

def lineText (family : Family) (series : Series) : String :=
  family.name ++ "\x7bmodel=" ++ labelText series.label.model ++ ",version=" ++
    labelText series.label.versionText ++ "\x7d " ++ valueText (family.value series.counters) ++
    "\n"

def familyText (series : List Series) (family : Family) : String :=
  let name := family.name
  let help := family.help
  s!"# HELP {name} {help}\n# TYPE {name} counter\n" ++
    String.join (series.map (lineText family))

/-- The exposed text; there is none before the first counters. -/
def text (metrics : Metrics) : String :=
  if metrics.series.isEmpty then ""
  else String.join (families.map (familyText metrics.listed))

end Metrics

end TensorInference.Server
