import DataPipeline.Build.Basic
import DataPipeline.Check.Basic
import DataPipeline.CommandLine.Arguments
import DataPipeline.CommandLine.Console
import DataPipeline.Disk.Pattern
import DataPipeline.Lock.Basic
import DataPipeline.Metrics.Prometheus
import DataPipeline.Node.Execute
import DataPipeline.Outcome.Codec
import DataPipeline.Plugin.Builtin
import DataPipeline.Run.World
import DataPipeline.Schema.Load

namespace DataPipeline.CommandLine

/-- What surrounds a command: the current directory, the environment, the name of the run, and
the time. -/
structure Host where
  cwd : String
  environment : String → Option String
  runId : String
  time : String

namespace Host

def load (h : Host) (path : String) : Script Schema := do
  Script.ofExcept LoadError.chain (Schema.load (← get).disk h.cwd path)

/-- Makes the directories above a path. -/
def ensureParent (h : Host) (what path : String) : Script Unit := do
  match (FilePath.parent? path).filter (· ≠ "") with
  | none => pure ()
  | some parent =>
    let (answer, disk) := (← get).disk.makeAll (FilePath.seenFrom h.cwd parent)
    modify fun c => { c with disk }
    Script.ofExcept
      (fun e => ⟨"Failed to create " ++ what ++ " directory: " ++ parent, [e.message]⟩) answer

/-- Writes a file anew; `failure` says what could not be done. -/
def write (h : Host) (failure path text : String) : Script Unit := do
  let disk ← Script.ofExcept (fun e => ⟨failure ++ ": " ++ path, [e.message]⟩)
    ((← get).disk.write (FilePath.seenFrom h.cwd path) text)
  modify fun c => { c with disk }

/-- Makes a file and the directories above it. -/
def writeBelow (h : Host) (what failure path text : String) : Script Unit := do
  h.ensureParent what path
  h.write failure path text

/-- The directories that the options name, else those that the environment names. -/
def context (h : Host) (o : RunOptions) : BuildContext :=
  let defaults := BuildContext.ofEnvironment h.cwd h.environment
  { dataRoot := (o.dataRoot.map (FilePath.absolute h.cwd)).getD defaults.dataRoot
    workspaceRoot :=
      (o.workspaceRoot.map (FilePath.absolute h.cwd)).getD defaults.workspaceRoot }

/-- Runs a pipeline to its end; the engine's own log entries are left out. -/
def execute (h : Host) (node : Node) (settings : RunSettings) : Script (Outcome × Metrics) := do
  let console ← get
  match (node.execute settings { runId := h.runId }).run { disk := console.disk } with
  | none => Script.fail ("Pipeline run " ++ h.runId ++ " does not end")
  | some (outcome, world) =>
    set { console with disk := world.disk, printed := console.printed ++ world.printed }
    pure (outcome, world.metrics)

def durationText (ms : Float) : String := (Number.double ms).text

def logStage (path : String) (m : StageMetrics) : Script Unit :=
  Script.log .info "Stage metrics" [("path", Text.quoted path), ("stage", Text.quoted m.stage),
    ("calls", toString m.calls), ("failures", toString m.failures),
    ("batches", toString m.batches), ("records", toString m.records),
    ("total_ms", durationText m.totalDurationMs), ("max_ms", durationText m.maxDurationMs)]

def logMetrics (m : Metrics) : Script Unit := do
  Script.log .info "Pipeline metrics summary"
    [("total_duration_ms", durationText m.totalDurationMs),
      ("stage_count", toString m.stages.length)]
  m.stages.forM fun s => logStage s.1 s.2

/-- Writes what the options ask for. -/
def report (h : Host) (o : RunOptions) (outcome : Outcome) (metrics : Metrics) :
    Script Unit := do
  if let some path := o.resultJson then
    h.writeBelow "result" "Failed to create result file" path outcome.toJson.pretty
    Script.log .info "Execution result written" [("result", path)]
  if o.printMetrics then logMetrics metrics
  if let some path := o.metricsJson then
    h.writeBelow "metrics" "Failed to create metrics file" path metrics.toJson.pretty
    Script.log .info "Metrics JSON written" [("metrics", path)]
  if let some path := o.metricsPrometheus then
    h.writeBelow "metrics" "Failed to write Prometheus metrics" path metrics.toPrometheus
    Script.log .info "Prometheus metrics written" [("metrics", path)]

def flagText (b : Bool) : String := if b then "true" else "false"

/-- Tells how a run ended. -/
def conclude (h : Host) (outcome : Outcome) : Script Unit := do
  let run := [("run_id", Text.quoted h.runId)]
  outcome.pendingValidators.forM fun name =>
    Script.log .warn ("Pending validator: " ++ name) run
  if outcome.isSuccess then Script.log .info "Pipeline completed" run
  else
    outcome.errors.forM fun error => Script.log .error error run
    Script.fail ("Pipeline run " ++ h.runId ++ " failed (validation: " ++
      flagText outcome.isValidationSuccess ++ ", execution: " ++
      flagText outcome.isExecutionSuccess ++ ")")

/-- Builds a pipeline, runs it once, and reports. -/
def run (h : Host) (o : RunOptions) : Script Unit := do
  let schema ← h.load o.schema
  let context := h.context o
  Script.log .info "Building pipeline" [("schema", o.schema), ("data_root", context.dataRoot),
    ("workspace_root", context.workspaceRoot)]
  let node ← Script.ofExcept (fun e => e.chain.under ("Failed to build pipeline: " ++ o.schema))
    (buildPipeline Registry.builtin schema context).result
  let (outcome, metrics) ← h.execute node { stageTimeoutMs := o.stageTimeoutMs }
  h.report o outcome metrics
  h.conclude outcome

/-- Logs what a check of the schema at a path has found. -/
def logFindings (path : String) (found : Findings) : Script Unit := do
  found.doubts.forM fun d => Script.log .warn d.message [("file", path)]
  found.problems.forM fun p => Script.log .error p.message [("file", path)]

/-- Checks the schema at a path and logs what there is to say. -/
def check (path : String) (schema : Schema) : Script Findings := do
  let found := checkSchema Registry.builtin schema
  logFindings path found
  pure found

def validate (h : Host) (path : String) : Script Unit := do
  let found ← check path (← h.load path)
  if found.isOk then Script.log .info "Schema validation passed" [("file", path)]
  else
    Script.fail ("Schema validation failed with " ++
      toString found.problems.length ++ " error(s)")

/-- All paths that match one of the patterns, as often as they match. -/
def matching (h : Host) : List String → Script (List String)
  | [] => pure []
  | pattern :: rest => do
    let paths ← Script.ofExcept (fun m => ⟨"Invalid glob pattern: " ++ pattern, [m.message]⟩)
      ((← get).disk.matching h.cwd pattern)
    if paths.isEmpty then
      Script.log .warn "Pattern matched no files" [("pattern", Text.quoted pattern)]
    let others ← h.matching rest
    pure (paths ++ others)

/-- Checks one of many schemas; whether it is in order. -/
def lintOne (h : Host) (path : String) : Script Bool := do
  match Schema.load (← get).disk h.cwd path with
  | .error e =>
    Script.log .error ("Failed to load schema: " ++ e.chain.text) [("file", path)]
    pure false
  | .ok schema =>
    let found ← check path schema
    if found.isOk then Script.log .info "Lint passed" [("file", path)]
    pure found.isOk

/-- Checks every schema that matches a pattern, also after one that is not in order. -/
def lint (h : Host) (patterns : List String) : Script Unit := do
  let paths ← h.matching patterns
  if paths.isEmpty then Script.fail "No schema files matched the supplied patterns"
  else
    let verdicts ← paths.mapM h.lintOne
    let failures := verdicts.count false
    if failures = 0 then
      Script.log .info "All schema lint checks passed" [("count", toString paths.length)]
    else
      Script.fail ("Lint failed for " ++ toString failures ++ " of " ++ toString paths.length ++
        " schema(s)")

/-- Writes a lockfile for a schema without problems. -/
def lock (h : Host) (path output : String) : Script Unit := do
  let schema ← h.load path
  let found ← check path schema
  if !found.isOk then
    Script.fail ("Cannot generate lockfile due to " ++ toString found.problems.length ++
      " validation error(s)")
  else
    h.ensureParent "lockfile" output
    let nodes ← Script.ofExcept BuildError.chain (lockSchema Registry.builtin schema)
    let disk ← Script.ofExcept id
      (Lock.store (← get).disk h.cwd output (Lock.text h.time nodes))
    modify fun c => { c with disk }
    Script.log .info "Lockfile generated successfully" [("lockfile", output)]

/-- The names of the plugins of a kind, a line each. -/
def pluginLines (kind : PluginKind) : String :=
  "Available " ++ kind.name ++ "s:\n" ++
    String.join ((Registry.builtin.known kind).map fun name => "- " ++ name ++ "\n")

def listPlugins : Script Unit :=
  [PluginKind.generator, .wrapper, .datajet].forM fun kind => Script.print (pluginLines kind)

def perform (h : Host) : Command → Script Unit
  | .run options => h.run options
  | .validate schema => h.validate schema
  | .lint patterns => h.lint patterns
  | .lock schema output => h.lock schema output
  | .listPlugins => listPlugins

end Host

end DataPipeline.CommandLine
