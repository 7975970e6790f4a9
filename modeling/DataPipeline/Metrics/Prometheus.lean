import DataPipeline.Metrics.Basic

namespace DataPipeline.Metrics

/-- A series: its name, what it tells, its type, and its value at a place. -/
structure Series where
  name : String
  help : String
  type : String
  value : StageMetrics → String

/-- A duration in milliseconds as seconds with six decimals. -/
def secondsText (ms : Float) : String := String.ofList (Decimal.fixedChars 6 (ms / 1000))

def series : List Series := [
  ⟨"datajet_stage_calls_total", "Stage execution count", "counter", fun m => toString m.calls⟩,
  ⟨"datajet_stage_failures_total", "Failed stage executions", "counter",
    fun m => toString m.failures⟩,
  ⟨"datajet_stage_validation_failures_total",
    "Stage executions skipped by validation", "counter",
    fun m => toString m.validationFailures⟩,
  ⟨"datajet_stage_batches_total", "Batches transmitted", "counter",
    fun m => toString m.batches⟩,
  ⟨"datajet_stage_records_total", "Records transmitted", "counter",
    fun m => toString m.records⟩,
  ⟨"datajet_stage_duration_seconds_total", "Accumulated stage duration in seconds", "counter",
    fun m => secondsText m.totalDurationMs⟩,
  ⟨"datajet_stage_duration_seconds_max", "Maximum stage duration in seconds", "gauge",
    fun m => secondsText m.maxDurationMs⟩]

def header (name help type : String) : String :=
  "# HELP " ++ name ++ " " ++ help ++ "\n# TYPE " ++ name ++ " " ++ type ++ "\n"

/-- The labels of a place: its path and the name of its stage. -/
def labels (path : String) (m : StageMetrics) : String :=
  "path=\"" ++ path ++ "\",stage=\"" ++ m.stage ++ "\""

def line (s : Series) (path : String) (m : StageMetrics) : String :=
  s.name ++ "\x7b" ++ labels path m ++ "\x7d " ++ s.value m ++ "\n"

def totalName : String := "datajet_pipeline_duration_seconds"

/-- The headers of all series, a line of each series for every place, and the total. -/
def toPrometheus (m : Metrics) : String :=
  String.join (series.map fun s => header s.name s.help s.type) ++
    String.join (m.stages.flatMap fun p => series.map fun s => line s p.1 p.2) ++
    header totalName "Total pipeline duration" "gauge" ++
    totalName ++ " " ++ secondsText m.totalDurationMs ++ "\n"

end DataPipeline.Metrics
