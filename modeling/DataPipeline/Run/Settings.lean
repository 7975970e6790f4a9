import DataPipeline.Schema.Spec

namespace DataPipeline

open Document

/-- The longest time, in milliseconds, that one phase of a stage may take. -/
structure RunSettings where
  stageTimeoutMs : Option Nat := none
  deriving DecidableEq, Inhabited, Repr

namespace RunSettings

def shape : Shape RunSettings where
  name := "struct PipelineConfig"
  fields := ["stageTimeoutMs"]
  optional _ := true
  start := {}
  put s _ r d := do .ok { s with stageTimeoutMs := ← Reading.readOption readUnsigned64 r d }

def toJson (s : RunSettings) : Json :=
  .obj [("stageTimeoutMs", (s.stageTimeoutMs.map Json.nat).getD .null)]

/-- Sets the limit to a duration in seconds and nanoseconds; whole milliseconds count, and no
more of them than 64 bits hold. -/
def withStageTimeout (s : RunSettings) (seconds nanos : Nat) : RunSettings :=
  { s with stageTimeoutMs := some (min (seconds * 1000 + nanos / 1000000) (Word.limit 64 - 1)) }

end RunSettings

/-- The values that plugins see during a run; wrappers hand changed copies to their child. -/
structure RunContext where
  runId : String := "local"
  bindings : Fields := []
  deriving Inhabited, BEq, Repr

def RunContext.withVariable (c : RunContext) (key : String) (value : Json) : RunContext :=
  { c with bindings := Fields.insert key value c.bindings }

end DataPipeline
