import DataPipeline.Proofs.CommandLine.Script
import DataPipeline.Proofs.Node.Nested
import DataPipeline.Proofs.Node.Results
import DataPipeline.Proofs.Node.Settles
import DataPipeline.Proofs.Node.Tenants
import DataPipeline.Proofs.Outcome.Written

namespace DataPipeline

/-- The built-in plugins come to an end. -/
theorem Stage.settles_builtin {s : Stage} {file? : Option String} (hg : s.generator.Silent)
    (hd : s.datajet.Writes file?) : s.Settles where
  generator ctx := by
    obtain ⟨⟨v, hv⟩, _⟩ := hg ctx
    rw [hv]
    trivial
  pull ctx i := by
    obtain ⟨item, hitem⟩ := (hg ctx).2 i
    rw [hitem]
    trivial
  datajet ctx := by
    generalize s.datajet = d at hd
    cases hd with
    | stdout label => trivial
    | discard => trivial
    | @file path h =>
      rw [fileDatajet]
      dsimp only
      split
      · trivial
      · intro answer
        cases answer <;> trivial
  transmit earlier batch ctx := by
    generalize s.datajet = d at hd
    cases hd with
    | stdout label => exact fun _ => trivial
    | discard => trivial
    | file h =>
      intro opened
      cases opened with
      | error e => trivial
      | ok _ =>
        intro written
        cases written <;> trivial

namespace Node

variable {n : Node} {o : Outcome}

theorem run_builtin_isSome {schema : Schema} {context : BuildContext}
    (hl : context.library.entries = [])
    (hb : (buildPipeline Registry.builtin schema context).result = .ok n)
    (settings : RunSettings) (ctx : RunContext) (w : World) :
    ∃ o w', (n.execute settings ctx).run w = some (o, w') := by
  have hplain := plain_built hl hb
  apply run_isSome ((buildPipeline_builtAt hb).shaped rfl)
  intro _ s hs
  obtain ⟨file?, hwrites⟩ := hplain.writes s hs
  exact Stage.settles_builtin (hplain.silent s hs) hwrites

theorem isSuccess_iff_stages_of_inner (hinner : ¬o.IsLeaf)
    (hparts : ∀ q : Outcome, q.PartOf o → q.Consistent)
    (hchild : ∀ c ∈ o.children, (c.isSuccess = true ↔
      ∀ q : Outcome, q.PartOf c → q.stage.kind = .stage → q.isSuccess = true)) :
    o.isSuccess = true ↔
    ∀ q : Outcome, q.PartOf o → q.stage.kind = .stage → q.isSuccess = true := by
  rw [Outcome.isSuccess_iff_children hinner hparts]
  constructor
  · intro hall q hq hstage
    cases hq with
    | refl => exact absurd (.inl hstage) hinner
    | inside hc hq => exact (hchild _ hc).1 (hall _ hc) q hq hstage
  · intro hall c hc
    apply (hchild c hc).2
    intro q hq hstage
    exact hall q (.inside hc hq) hstage

/-- A run is a success if no stage in its outcome failed. -/
theorem Reports.isSuccess_iff_stages (h : n.Reports o)
    (hparts : ∀ q : Outcome, q.PartOf o → q.Consistent) :
    o.isSuccess = true ↔
    ∀ q : Outcome, q.PartOf o → q.stage.kind = .stage → q.isSuccess = true := by
  induction h with
  | @stage s o hd hc =>
    constructor
    · intro hsuccess q hq _
      rwa [Outcome.partOf_childless hc hq]
    · intro hall
      exact hall o (.refl o) (by rw [hd]; rfl)
  | @generator g o hd hc hsuccess =>
    constructor
    · intro _ q hq _
      rwa [Outcome.partOf_childless hc hq]
    · intro _
      exact hsuccess
  | @synchronizer children fan o hd hlen h ih =>
    apply isSuccess_iff_stages_of_inner (by simp [Outcome.IsLeaf, hd, descriptor, kind]) hparts
    intro c hc
    obtain ⟨i, hi⟩ := List.mem_iff_getElem?.1 hc
    have hlt := (List.getElem?_eq_some_iff.1 hi).1
    rw [hlen] at hlt
    exact ih i _ c (List.getElem?_eq_getElem hlt) hi fun q hq => hparts q (.inside hc hq)
  | @passthrough n o h ih => exact ih hparts
  | @repeated times n o hd hlen h ih =>
    apply isSuccess_iff_stages_of_inner (by simp [Outcome.IsLeaf, hd]) hparts
    intro c hc
    exact ih c hc fun q hq => hparts q (.inside hc hq)

end Node

namespace CommandLine

variable {h : Host} {disk : Disk} {o : RunOptions} {c : Console}

/-- The files that a run is asked for. -/
def RunOptions.outputs (o : RunOptions) : List String :=
  o.resultJson.toList ++ o.metricsJson.toList ++ o.metricsPrometheus.toList

theorem RunOptions.map_fst_reports (outcome : Outcome) (metrics : Metrics) :
    (o.reports outcome metrics).map (·.1) = o.outputs := by
  rw [reports, outputs]
  cases o.resultJson <;> cases o.metricsJson <;> cases o.metricsPrometheus <;> rfl

/-- What is logged before a pipeline is built. -/
def Host.building (h : Host) (o : RunOptions) : LogEntry :=
  ⟨.info, "Building pipeline", [("schema", o.schema), ("data_root", (h.context o).dataRoot),
    ("workspace_root", (h.context o).workspaceRoot)]⟩

theorem Host.run_of_load_error {e : LoadError}
    (hload : Schema.load disk h.cwd o.schema = .error e) :
    (h.run o).run { disk } = (.error e.chain, { disk }) := by
  rw [run]
  exact Script.run_bind_error (run_load_error (c := { disk }) hload)

theorem Host.run_of_build_error {schema : Schema} {e : BuildError}
    (hload : Schema.load disk h.cwd o.schema = .ok schema)
    (hbuild : (buildPipeline Registry.builtin schema (h.context o)).result = .error e) :
    (h.run o).run { disk } = (.error (e.chain.under ("Failed to build pipeline: " ++ o.schema)),
      { disk, log := [h.building o] }) := by
  rw [run, Script.run_bind_ok (run_load_ok (c := { disk }) hload),
    Script.run_bind_ok (Script.run_log _ _ _)]
  exact Script.run_bind_error (Script.run_ofExcept_error hbuild)

theorem Host.run_execute {n : Node} {settings : RunSettings} {outcome : Outcome} {world : World}
    (hrun : (n.execute settings { runId := h.runId }).run { disk := c.disk } =
      some (outcome, world)) :
    (h.execute n settings).run c = (.ok (outcome, world.metrics),
      { c with disk := world.disk, printed := c.printed ++ world.printed }) := by
  rw [execute, Script.run_bind_ok Script.run_get]
  simp only [hrun]
  rfl

/-- A pipeline that is loaded and built is run once, and what its run says is reported. -/
theorem Host.run_of_stored {schema : Schema} {n : Node} {outcome : Outcome} {world : World}
    {stored : Disk} (hload : Schema.load disk h.cwd o.schema = .ok schema)
    (hbuild : (buildPipeline Registry.builtin schema (h.context o)).result = .ok n)
    (hrun : (n.execute { stageTimeoutMs := o.stageTimeoutMs } { runId := h.runId }).run
      { disk } = some (outcome, world))
    (hstore : world.disk.storeAll h.cwd (o.reports outcome world.metrics) = .ok stored) :
    ∃ r c', (h.run o).run { disk } = (r, c') ∧ c'.disk = stored ∧ c'.printed = world.printed ∧
      c'.warnings = outcome.pendingValidators.map h.pendingWarning ∧
      (r = .ok () ↔ outcome.isSuccess = true) := by
  have hexecute := run_execute (c := { disk, log := [h.building o] }) hrun
  obtain ⟨c', hreport, hdisk, hprinted, hwarnings⟩ := stores_report
    (c := { disk := world.disk, printed := "" ++ world.printed, log := [h.building o] }) hstore
  obtain ⟨r, c'', hconclude, hdisk', hprinted', hwarnings', hr⟩ :=
    run_conclude (h := h) (c := c') outcome
  refine ⟨r, c'', ?_, hdisk'.trans hdisk, ?_, ?_, hr⟩
  · rw [run, Script.run_bind_ok (run_load_ok (c := { disk }) hload),
      Script.run_bind_ok (Script.run_log _ _ _),
      Script.run_bind_ok (Script.run_ofExcept_ok hbuild)]
    exact (Script.run_bind_ok hexecute).trans ((Script.run_bind_ok hreport).trans hconclude)
  · rw [hprinted', hprinted, String.empty_append]
  · rw [hwarnings', hwarnings]
    rfl

/-- A warning of some validator that is still pending. -/
def LogEntry.isPending (e : LogEntry) : Bool :=
  e.level = .warn && "Pending validator: ".toList.isPrefixOf e.message.toList

theorem filter_isPending {h : Host} {entries : List LogEntry} {names : List String}
    (hwarnings : entries.filter (·.level = .warn) = names.map h.pendingWarning) :
    entries.filter (·.isPending) = names.map h.pendingWarning := by
  have hsplit :
      entries.filter (·.isPending) = (entries.filter (·.level = .warn)).filter fun e =>
      "Pending validator: ".toList.isPrefixOf e.message.toList := by
    rw [List.filter_filter]
    exact List.filter_congr fun e _ => Bool.and_comm _ _
  rw [hsplit, hwarnings, List.filter_eq_self, List.forall_mem_map]
  intro name _
  rw [List.isPrefixOf_iff_prefix, Host.pendingWarning, String.toList_append]
  exact List.prefix_append _ _

/-- What the command has left behind once a run has come to its end: the files that were asked
for, among them the outcome, which is read back unless it nests more than 127 containers, a
warning for each pending validator of the root, and a code that is 0 if no stage failed. -/
structure Host.Reported (h : Host) (o : RunOptions) (outcome : Outcome) (world : World)
    (stored : Disk) (exit : Exit) : Prop where
  disk : exit.disk = stored
  printed : exit.printed = world.printed
  written : ∀ report ∈ o.reports outcome world.metrics,
    stored.readText (FilePath.seenFrom h.cwd report.1) = .ok report.2
  result : ∀ path, o.resultJson = some path → ∃ text,
    stored.readText (FilePath.seenFrom h.cwd path) = .ok text ∧
      Document.Yields (Document.readJsonText Outcome.read text) outcome
        (outcome.toJson.depth ≤ 127)
  warned : exit.log.filter (·.isPending) = outcome.pendingValidators.map h.pendingWarning
  code : exit.code = 0 ↔ ∀ q : Outcome, q.PartOf outcome → q.stage.kind = .stage →
    q.isValidationSuccess = true ∧ q.isExecutionSuccess = true

theorem Host.reported_of_stored {schema : Schema} {n : Node} {outcome : Outcome} {world : World}
    {stored : Disk} (hload : Schema.load disk h.cwd o.schema = .ok schema)
    (hbuild : (buildPipeline Registry.builtin schema (h.context o)).result = .ok n)
    (hrun : (n.execute { stageTimeoutMs := o.stageTimeoutMs } { runId := h.runId }).run
      { disk } = some (outcome, world))
    (hstore : world.disk.storeAll h.cwd (o.reports outcome world.metrics) = .ok stored)
    (hplaces : (o.outputs.map fun path =>
      FilePath.place (FilePath.seenFrom h.cwd path)).Nodup) :
    h.Reported o outcome world stored (.ofScript (h.run o) disk) := by
  obtain ⟨hreports, hparts⟩ :=
    Node.faithful_of_ends rfl (buildPipeline_builtAt hbuild) (Activity.ends_of_run hrun)
  rw [← RunOptions.map_fst_reports outcome world.metrics, List.map_map] at hplaces
  have hwritten := Disk.readText_storeAll hstore hplaces
  obtain ⟨r, c, hscript, hdisk, hprinted, hwarnings, hr⟩ :=
    run_of_stored hload hbuild hrun hstore
  have hstages :
      outcome.isSuccess = true ↔ ∀ q : Outcome, q.PartOf outcome → q.stage.kind = .stage →
      q.isValidationSuccess = true ∧ q.isExecutionSuccess = true := by
    simpa only [Outcome.isSuccess, Bool.and_eq_true] using hreports.isSuccess_iff_stages hparts
  have hresult (path : String) (hpath : o.resultJson = some path) : ∃ text,
      stored.readText (FilePath.seenFrom h.cwd path) = .ok text ∧
        Document.Yields (Document.readJsonText Outcome.read text) outcome
          (outcome.toJson.depth ≤ 127) := by
    refine ⟨outcome.toJson.pretty, ?_, outcome.yields_readJsonText⟩
    exact hwritten (path, outcome.toJson.pretty) (by simp [RunOptions.reports, hpath])
  have hpending := filter_isPending hwarnings
  rw [Exit.ofScript, hscript]
  cases r with
  | ok u =>
    have hsuccess := hr.1 rfl
    exact ⟨hdisk, hprinted, hwritten, hresult, hpending, iff_of_true rfl (hstages.1 hsuccess)⟩
  | error e =>
    have hfailed : ¬outcome.isSuccess = true := by
      intro hsuccess
      cases hr.2 hsuccess
    have hstage := mt hstages.2 hfailed
    exact ⟨hdisk, hprinted, hwritten, hresult, hpending, iff_of_false Nat.one_ne_zero hstage⟩

/-- The command `run` reports completely. If the pipeline cannot be loaded or built, it ends
with 1 and an error: nothing is printed and no file changes. Otherwise the pipeline is run once,
and if the disk takes the files asked for, each at a place of its own, then all is reported, be
the run a success or not. -/
theorem program_run_reports (h : Host) (disk : Disk) (arguments : List String) (o : RunOptions)
    (hcommand : readCommand arguments = .ok (.run o)) :
    (∀ e, Schema.load disk h.cwd o.schema = .error e →
      program h disk arguments =
        ⟨1, "", [], some ("Error: " ++ e.chain.report ++ "\n"), disk⟩) ∧
    (∀ schema e, Schema.load disk h.cwd o.schema = .ok schema →
      (buildPipeline Registry.builtin schema (h.context o)).result = .error e →
      program h disk arguments = ⟨1, "", [h.building o], some ("Error: " ++
        (e.chain.under ("Failed to build pipeline: " ++ o.schema)).report ++ "\n"), disk⟩) ∧
    (∀ schema n, Schema.load disk h.cwd o.schema = .ok schema →
      (buildPipeline Registry.builtin schema (h.context o)).result = .ok n → ∃ outcome world,
        (n.execute { stageTimeoutMs := o.stageTimeoutMs } { runId := h.runId }).run { disk } =
          some (outcome, world) ∧
        ∀ stored, world.disk.storeAll h.cwd (o.reports outcome world.metrics) = .ok stored →
          (o.outputs.map fun path => FilePath.place (FilePath.seenFrom h.cwd path)).Nodup →
          h.Reported o outcome world stored (program h disk arguments)) := by
  have hprogram : program h disk arguments = .ofScript (h.run o) disk := by
    rw [program, hcommand]
    rfl
  rw [hprogram]
  refine ⟨?unloaded, ?unbuilt, ?run⟩
  case unloaded =>
    intro e hload
    rw [Exit.ofScript, Host.run_of_load_error hload]
  case unbuilt =>
    intro schema e hload hbuild
    rw [Exit.ofScript, Host.run_of_build_error hload hbuild]
  case run =>
    intro schema n hload hbuild
    obtain ⟨outcome, world, hrun⟩ := Node.run_builtin_isSome rfl hbuild
      { stageTimeoutMs := o.stageTimeoutMs } { runId := h.runId } { disk }
    refine ⟨outcome, world, hrun, ?_⟩
    intro stored hstore hplaces
    exact Host.reported_of_stored hload hbuild hrun hstore hplaces

/-- A host at the root. -/
def rootHost : Host := ⟨"/", fun _ => none, "run", ""⟩

/-- A disk with one schema on it. -/
def schemaDisk (schema : Schema) : Disk := ⟨[(["s.json"], .file schema.toJson.pretty.toUTF8)]⟩

/-- Asks for the outcome of that schema. -/
def resultArguments : List String := ["run", "s.json", "--result-json", "r.json"]

def resultOptions : RunOptions where
  schema := "s.json"
  resultJson := some "r.json"

theorem readCommand_resultArguments :
    readCommand resultArguments = .ok (.run resultOptions) := by
  decide +kernel

theorem load_schemaDisk {schema : Schema}
    (h : Schema.ofJsonText schema.toJson.pretty = .ok schema) :
    Schema.load (schemaDisk schema) "/" "s.json" = .ok schema := by
  have hlocate :
      (schemaDisk schema).locate (FilePath.seenFrom "/" "s.json") = .ok ([], some "s.json") :=
    Disk.locate_of_split (by decide +kernel) (by decide +kernel)
      (by decide +kernel) (by decide) _
  have htext : (schemaDisk schema).readText (FilePath.seenFrom "/" "s.json") =
      .ok schema.toJson.pretty :=
    Disk.readText_ok.2 ⟨[], "s.json", schema.toJson.pretty.toUTF8, hlocate, by decide +kernel,
      by decide +kernel, by simp [Disk.get?, schemaDisk], Disk.fromUTF8?_toUTF8 _⟩
  have hformat : formatOf "s.json" = .json := by decide +kernel
  rw [Schema.load, htext, hformat]
  simp only [Except.mapError, bind, Except.bind, h]

theorem store_result (schema : Schema) (text : String) : ∃ stored,
    (schemaDisk schema).storeAll "/" [("r.json", text)] = .ok stored := by
  have hlocate :
      (schemaDisk schema).locate (FilePath.seenFrom "/" "r.json") = .ok ([], some "r.json") :=
    Disk.locate_of_split (by decide +kernel) (by decide +kernel)
      (by decide +kernel) (by decide) _
  have hnone : (schemaDisk schema).get? ["r.json"] = none := by simp [Disk.get?, schemaDisk]
  have hstore : (schemaDisk schema).store "/" "r.json" text = .ok _ :=
    Disk.store_of_locate (by decide +kernel) hlocate (by decide +kernel)
      (by decide +kernel) hnone
  exact ⟨_, Disk.storeAll_cons.2 ⟨_, hstore, rfl⟩⟩

theorem nodup_resultPlaces :
    (resultOptions.outputs.map fun path => FilePath.place (FilePath.seenFrom "/" path)).Nodup :=
  List.nodup_singleton (FilePath.place (FilePath.seenFrom "/" "r.json"))

/-- A stage whose generator has no records. -/
def failedStage : Schema where
  component := some "stage"
  generator := some ⟨"static", none⟩
  datajet := some ⟨"discard", none⟩

theorem toJson_failedStage : failedStage.toJson = .object [("component", .string "stage"),
    ("datajet", .object [("name", .string "discard")]),
      ("generator", .object [("name", .string "static")])] := by
  have hcomponent : ¬"generator" < "component" ∧ ¬"datajet" < "component" := by decide +kernel
  have hgenerator : "datajet" < "generator" := by decide +kernel
  change Json.object (Fields.insert "datajet" (PluginRef.mk "discard" none).toJson
    (Fields.insert "generator" (PluginRef.mk "static" none).toJson
      [("component", .string "stage")])) = _
  simp only [Fields.insert, hcomponent, hgenerator, String.reduceEq, ↓reduceIte]
  rfl

theorem yields_pluginName (r : Document.Reading) (name : String) {d : Document.Doc}
    (hd : Document.Holds d (.object [("name", .string name)])) :
    Document.Yields (Document.Reading.readOption PluginRef.read r d) (some ⟨name, none⟩)
      ((Json.object [("name", .string name)]).depth ≤ r.depth) := by
  have hreads :
      PluginRef.shape.Reads (r.depth - 1) PluginRef.shape.start [] [("name", .string name)]
      ⟨name, none⟩ ["name"] := by
    apply Document.Shape.Reads.field (by decide) (by decide) (fun r d => rfl)
    · intro r d _ hd
      exact Document.yields_readText r "a string" name hd
    exact .nil _ _
  have hread : Document.Yields (PluginRef.read r d) ⟨name, none⟩ _ := hreads.yields_read rfl hd
  have hoption : Document.Reading.readOption PluginRef.read r d =
      PluginRef.read r d >>= fun p => .ok (some p) := by
    cases hd
    rfl
  rw [hoption]
  exact hread.then_ok rfl

theorem ofJsonText_failedStage :
    Schema.ofJsonText failedStage.toJson.pretty = .ok failedStage := by
  apply Schema.ofJsonText_pretty
  · rw [toJson_failedStage]
    rfl
  · rw [toJson_failedStage]
    decide
  intro r d hd
  rw [toJson_failedStage] at hd ⊢
  have hreads : (Schema.shape (Schema.readWithin r.depth)).Reads (r.depth - 1)
      (Schema.shape (Schema.readWithin r.depth)).start [] [("component", .string "stage"),
        ("datajet", .object [("name", .string "discard")]),
        ("generator", .object [("name", .string "static")])]
      failedStage ["generator", "datajet", "component"] := by
    apply Document.Shape.Reads.field (by simp [Schema.shape]) (by decide) (fun r d => rfl)
    · intro r d _ hd
      exact Schema.yields_readOptionText r "stage" hd
    apply Document.Shape.Reads.field (by simp [Schema.shape]) (by decide) (fun r d => rfl)
    · intro r d _ hd
      exact yields_pluginName r "discard" hd
    apply Document.Shape.Reads.field (by simp [Schema.shape]) (by decide) (fun r d => rfl)
    · intro r d _ hd
      exact yields_pluginName r "static" hd
    exact .nil _ _
  exact hreads.yields_read rfl hd

/-- The result of a stage that fails its validation is written and read back, and the code is
not 0. -/
theorem program_run_reports_failedStage :
    readCommand resultArguments = .ok (.run resultOptions) ∧
    ∃ outcome world stored, rootHost.Reported resultOptions outcome world stored
      (program rootHost (schemaDisk failedStage) resultArguments) ∧
      outcome.isValidationSuccess = false ∧ outcome.toJson.depth ≤ 127 ∧
      (program rootHost (schemaDisk failedStage) resultArguments).code ≠ 0 := by
  refine ⟨readCommand_resultArguments, ?_⟩
  obtain ⟨_, _, hreports⟩ :=
    program_run_reports rootHost (schemaDisk failedStage) resultArguments resultOptions
      readCommand_resultArguments
  have hload := load_schemaDisk ofJsonText_failedStage
  have hbuild :
      (buildPipeline Registry.builtin failedStage (rootHost.context resultOptions)).result =
      .ok (.stage ⟨.root, staticGenerator ⟨[], 1⟩, discardDatajet, {}⟩) := rfl
  obtain ⟨outcome, world, hrun, hstored⟩ := hreports failedStage _ hload hbuild
  have hrun' : ((Node.stage ⟨.root, staticGenerator ⟨[], 1⟩, discardDatajet, {}⟩).execute {}
      { runId := "run" }).run { disk := schemaDisk failedStage } = some (_, _) := rfl
  obtain ⟨hkind, hvalidation, hdepth, hdisk⟩ : outcome.stage.kind = .stage ∧
      outcome.isValidationSuccess = false ∧ outcome.toJson.depth ≤ 127 ∧
      world.disk = schemaDisk failedStage := by
    cases hrun.symm.trans hrun'
    exact ⟨rfl, rfl, by decide, rfl⟩
  obtain ⟨stored, hstore⟩ := store_result failedStage outcome.toJson.pretty
  have hreported := hstored stored (hdisk ▸ hstore) nodup_resultPlaces
  refine ⟨outcome, world, stored, hreported, hvalidation, hdepth, ?_⟩
  intro hcode
  have hsuccess := (hreported.code.1 hcode outcome (.refl outcome) hkind).1
  rw [hvalidation] at hsuccess
  cases hsuccess

/-- Not every result file can be read back: one that nests more than 127 containers is
refused. -/
theorem not_forall_result_read :
    ¬∀ (h : Host) (disk : Disk) (arguments : List String) (o : RunOptions) (schema : Schema)
      (n : Node) (outcome : Outcome) (world : World) (stored : Disk) (path text : String),
    readCommand arguments = .ok (.run o) → Schema.load disk h.cwd o.schema = .ok schema →
    (buildPipeline Registry.builtin schema (h.context o)).result = .ok n →
    (n.execute { stageTimeoutMs := o.stageTimeoutMs } { runId := h.runId }).run { disk } =
      some (outcome, world) →
    world.disk.storeAll h.cwd (o.reports outcome world.metrics) = .ok stored →
    (o.outputs.map fun path => FilePath.place (FilePath.seenFrom h.cwd path)).Nodup →
    o.resultJson = some path →
    (program h disk arguments).disk.readText (FilePath.seenFrom h.cwd path) = .ok text →
    Document.readJsonText Outcome.read text = .ok outcome := by
  intro hall
  have hload := load_schemaDisk (Schema.ofJsonText_nested (Nat.le_refl 63))
  have hbuild : (buildPipeline Registry.builtin (Schema.nested 63)
      (rootHost.context resultOptions)).result = .ok (Node.nested 63) :=
    Build.node_nested 63 _ _
  have hrun : ((Node.nested 63).execute {} { runId := "run" }).run
      { disk := schemaDisk (Schema.nested 63) } =
      some (Outcome.nested 63, { disk := schemaDisk (Schema.nested 63) }) := by
    rw [Node.execute_nested]
    rfl
  obtain ⟨stored, hstore⟩ := store_result (Schema.nested 63) (Outcome.nested 63).toJson.pretty
  have hreported :=
    Host.reported_of_stored (h := rootHost) (o := resultOptions) hload hbuild hrun hstore
      nodup_resultPlaces
  have htext := hreported.written
    ("r.json", (Outcome.nested 63).toJson.pretty) List.mem_cons_self
  have hdisk :
      (program rootHost (schemaDisk (Schema.nested 63)) resultArguments).disk = stored := by
    rw [program, readCommand_resultArguments]
    exact hreported.disk
  rw [← hdisk] at htext
  have hread :=
    hall rootHost _ _ _ _ _ _ _ _ _ _ readCommand_resultArguments hload hbuild hrun hstore
      nodup_resultPlaces rfl htext
  have hdepth := (Outcome.nested 63).yields_readJsonText.eq_ok_iff.1 hread
  rw [Outcome.depth_toJson_nested] at hdepth
  omega

end CommandLine

end DataPipeline
