import DataPipeline.Decimal.Fixed
import DataPipeline.Json.Printer

namespace DataPipeline

/-- What has happened at one place. `stage` is the name under which it was counted first. -/
structure StageMetrics where
  stage : String
  calls : Nat := 0
  failures : Nat := 0
  validationFailures : Nat := 0
  batches : Nat := 0
  records : Nat := 0
  totalDurationMs : Float := 0
  maxDurationMs : Float := 0
  deriving Inhabited, Repr

/-- An occurrence at a place of a stage with a name. -/
inductive Occurrence where
  | batch (records : Nat)
  | invalid
  | call (failed : Bool)
  deriving DecidableEq, Inhabited, Repr

def StageMetrics.add (m : StageMetrics) : Occurrence → StageMetrics
  | .batch records => { m with batches := m.batches + 1, records := m.records + records }
  | .invalid => { m with validationFailures := m.validationFailures + 1 }
  | .call failed =>
    { m with calls := m.calls + 1, failures := if failed then m.failures + 1 else m.failures }

/-- The places in ascending order. -/
structure Metrics where
  stages : List (String × StageMetrics) := []
  totalDurationMs : Float := 0
  deriving Inhabited, Repr

namespace Metrics

def addTo (path stage : String) (o : Occurrence) :
    List (String × StageMetrics) → List (String × StageMetrics)
  | [] => [(path, StageMetrics.add { stage } o)]
  | (p, m) :: rest =>
    if path < p then (path, StageMetrics.add { stage } o) :: (p, m) :: rest
    else if path = p then (p, m.add o) :: rest
    else (p, m) :: addTo path stage o rest

def count (m : Metrics) (path stage : String) (o : Occurrence) : Metrics :=
  { m with stages := addTo path stage o m.stages }

/-- A duration in seconds and nanoseconds as milliseconds. -/
def milliseconds (seconds nanos : Nat) : Float :=
  (seconds.toUInt64.toFloat + nanos.toUInt64.toFloat / 1e9) * 1000

def withTotal (m : Metrics) (micros : Nat) : Metrics :=
  { m with totalDurationMs := milliseconds (micros / 1000000) (micros % 1000000 * 1000) }

end Metrics

/-- The counters as an object, its fields in the order in which they are written to a file. -/
def StageMetrics.fields (m : StageMetrics) : Fields :=
  [("stage", .string m.stage), ("calls", .nat m.calls), ("failures", .nat m.failures),
    ("validation_failures", .nat m.validationFailures), ("batches", .nat m.batches),
    ("records", .nat m.records)]

def StageMetrics.toJson (m : StageMetrics) : Json :=
  .object (m.fields ++ [("total_duration_ms", .number (.double m.totalDurationMs)),
    ("max_duration_ms", .number (.double m.maxDurationMs))])

def Metrics.toJson (m : Metrics) : Json :=
  .object [("stages", .object (m.stages.map fun s => (s.1, s.2.toJson))),
    ("total_duration_ms", .number (.double m.totalDurationMs))]

end DataPipeline
