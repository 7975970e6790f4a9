import DataPipeline.CommandLine.Program
import DataPipeline.Proofs.Disk.Stored

namespace DataPipeline

namespace CommandLine

variable {α β ε : Type} {c c' : Console}

namespace Script

variable {x : Script α} {f : α → Script β} {a : α} {e : Chain}

theorem run_bind_ok (h : x.run c = (.ok a, c')) : (x >>= f).run c = (f a).run c' := by
  rw [ExceptT.run_bind]
  simp only [bind, StateT.bind]
  rw [h]

theorem run_bind_error (h : x.run c = (.error e, c')) : (x >>= f).run c = (.error e, c') := by
  rw [ExceptT.run_bind]
  simp only [bind, StateT.bind]
  rw [h]
  rfl

theorem run_get : (get : Script Console).run c = (.ok c, c) := rfl

theorem run_log (level : Level) (message : String) (fields : List (String × String)) :
    (log level message fields).run c =
      (.ok (), { c with log := c.log ++ [⟨level, message, fields⟩] }) := rfl

theorem run_forM_log (level : Level) (message : α → String) (fields : List (String × String))
    (as : List α) :
    (as.forM fun a => log level (message a) fields).run c =
      (.ok (), { c with log := c.log ++ as.map fun a => ⟨level, message a, fields⟩ }) := by
  induction as generalizing c with
  | nil =>
    rw [List.map_nil, List.append_nil]
    rfl
  | cons a as ih =>
    change (log level (message a) fields >>= fun _ =>
      as.forM fun a => log level (message a) fields).run c = _
    rw [run_bind_ok (run_log _ _ _), ih]
    simp

theorem run_fail (message : String) :
    (fail message : Script α).run c = (.error (Chain.of message), c) := rfl

theorem run_ofExcept_ok {chain : ε → Chain} {r : Except ε α} (h : r = .ok a) :
    (ofExcept chain r).run c = (.ok a, c) := by
  rw [h]
  rfl

theorem run_ofExcept_error {chain : ε → Chain} {r : Except ε α} {e : ε} (h : r = .error e) :
    (ofExcept chain r).run c = (.error (chain e), c) := by
  rw [h]
  rfl

end Script

/-- The warnings in the log. -/
def Console.warnings (c : Console) : List LogEntry := c.log.filter (·.level = .warn)

/-- A script comes to its end with the given files, and neither prints nor warns. -/
def Stores (x : Script Unit) (c : Console) (disk : Disk) : Prop :=
  ∃ c', x.run c = (.ok (), c') ∧ c'.disk = disk ∧ c'.printed = c.printed ∧
    c'.warnings = c.warnings

namespace Stores

variable {x y : Script Unit} {disk disk' : Disk}

theorem pure (c : Console) : Stores (Pure.pure ()) c c.disk := ⟨c, rfl, rfl, rfl, rfl⟩

theorem bind (hx : Stores x c disk) (hy : ∀ c' : Console, c'.disk = disk → Stores y c' disk') :
    Stores (x >>= fun _ => y) c disk' := by
  obtain ⟨c', hrun, hdisk, hprinted, hwarnings⟩ := hx
  obtain ⟨c'', hrun', hdisk', hprinted', hwarnings'⟩ := hy c' hdisk
  exact ⟨c'', (Script.run_bind_ok hrun).trans hrun', hdisk', hprinted'.trans hprinted,
    hwarnings'.trans hwarnings⟩

theorem log (level : Level) (hlevel : level ≠ .warn) (message : String)
    (fields : List (String × String)) :
    Stores (Script.log level message fields) c c.disk := by
  refine ⟨_, rfl, rfl, rfl, ?_⟩
  simp [Console.warnings, hlevel]

theorem forM {as : List α} {f : α → Script Unit}
    (h : ∀ a ∈ as, ∀ c : Console, Stores (f a) c c.disk) :
    Stores (as.forM f) c c.disk := by
  induction as generalizing c with
  | nil => exact .pure c
  | cons a as ih =>
    change Stores (f a >>= fun _ => as.forM f) c c.disk
    apply (h a List.mem_cons_self c).bind
    intro c' hc'
    rw [← hc']
    exact ih fun a ha => h a (List.mem_cons_of_mem _ ha)

end Stores

namespace Host

variable {h : Host} {disk disk' : Disk} {path text : String}

theorem run_load_ok {schema : Schema} (hload : Schema.load c.disk h.cwd path = .ok schema) :
    (h.load path).run c = (.ok schema, c) := by
  rw [load, Script.run_bind_ok Script.run_get]
  exact Script.run_ofExcept_ok hload

theorem run_load_error {e : LoadError} (hload : Schema.load c.disk h.cwd path = .error e) :
    (h.load path).run c = (.error e.chain, c) := by
  rw [load, Script.run_bind_ok Script.run_get]
  exact Script.run_ofExcept_error hload

theorem run_write (failure : String)
    (hwrite : c.disk.write (FilePath.seenFrom h.cwd path) text = .ok disk) :
    (h.write failure path text).run c = (.ok (), { c with disk }) := by
  rw [write, Script.run_bind_ok Script.run_get,
    Script.run_bind_ok (Script.run_ofExcept_ok hwrite)]
  rfl

theorem run_ensureParent (h : Host) (what path text : String) (c : Console) :
    (∃ made, (h.ensureParent what path).run c = (.ok (), { c with disk := made }) ∧
      c.disk.store h.cwd path text = made.write (FilePath.seenFrom h.cwd path) text) ∨
    ∃ chain made e, (h.ensureParent what path).run c = (.error chain, { c with disk := made }) ∧
      c.disk.store h.cwd path text = .error e := by
  rw [ensureParent, Disk.store]
  cases (FilePath.parent? path).filter (· ≠ "") with
  | none => exact .inl ⟨c.disk, rfl, rfl⟩
  | some parent =>
    dsimp only
    rw [Script.run_bind_ok Script.run_get]
    cases c.disk.makeAll (FilePath.seenFrom h.cwd parent) with
    | mk answer made =>
      cases answer with
      | ok u => exact .inl ⟨made, rfl, rfl⟩
      | error e => exact .inr ⟨_, made, e, rfl, rfl⟩

theorem stores_writeBelow (what failure : String)
    (hstore : c.disk.store h.cwd path text = .ok disk) :
    Stores (h.writeBelow what failure path text) c disk := by
  rcases h.run_ensureParent what path text c with ⟨made, hmade, hwrite⟩ | ⟨_, _, e, _, hrefused⟩
  · rw [hstore] at hwrite
    refine ⟨{ c with disk }, ?_, rfl, rfl, rfl⟩
    rw [writeBelow, Script.run_bind_ok hmade,
      run_write (c := { c with disk := made }) failure hwrite.symm]
  · rw [hstore] at hrefused
    cases hrefused

/-- Writes a file if it is asked for, and tells where. -/
def writeAsked (h : Host) (path? : Option String) (what failure text message key : String) :
    Script Unit :=
  match path? with
  | some path => do
    h.writeBelow what failure path text
    Script.log .info message [(key, path)]
  | none => pure ()

theorem stores_writeAsked {path? : Option String} (what failure message key : String)
    (hstore : c.disk.storeAll h.cwd (path?.map fun path => (path, text)).toList = .ok disk) :
    Stores (h.writeAsked path? what failure text message key) c disk := by
  cases path? with
  | none =>
    cases hstore
    exact .pure c
  | some path =>
    obtain ⟨disk', hfile, hnone⟩ := Disk.storeAll_cons.1 hstore
    cases hnone
    apply (stores_writeBelow what failure hfile).bind
    intro c' hc'
    rw [← hc']
    exact .log _ (by decide) message _

theorem stores_logMetrics (m : Metrics) : Stores (logMetrics m) c c.disk := by
  apply (Stores.log _ (by decide) _ _).bind
  intro c' hc'
  rw [← hc']
  apply Stores.forM
  intro s _ c
  exact .log _ (by decide) _ _

end Host

/-- The files that a run is asked for, each with its text, in the order in which they are
written. -/
def RunOptions.reports (o : RunOptions) (outcome : Outcome) (metrics : Metrics) :
    List (String × String) :=
  (o.resultJson.map fun path => (path, outcome.toJson.pretty)).toList ++
    (o.metricsJson.map fun path => (path, metrics.toJson.pretty)).toList ++
    (o.metricsPrometheus.map fun path => (path, metrics.toPrometheus)).toList

namespace Host

variable {h : Host} {o : RunOptions} {outcome : Outcome} {metrics : Metrics} {disk : Disk}

theorem report_eq : h.report o outcome metrics = (do
    h.writeAsked o.resultJson "result" "Failed to create result file" outcome.toJson.pretty
      "Execution result written" "result"
    (if o.printMetrics then logMetrics metrics else pure ())
    h.writeAsked o.metricsJson "metrics" "Failed to create metrics file" metrics.toJson.pretty
      "Metrics JSON written" "metrics"
    h.writeAsked o.metricsPrometheus "metrics" "Failed to write Prometheus metrics"
      metrics.toPrometheus "Prometheus metrics written" "metrics") := by
  unfold report writeAsked
  cases o.resultJson <;> cases o.printMetrics <;> cases o.metricsJson <;>
    cases o.metricsPrometheus <;> simp

theorem stores_report (hstore : c.disk.storeAll h.cwd (o.reports outcome metrics) = .ok disk) :
    Stores (h.report o outcome metrics) c disk := by
  rw [RunOptions.reports] at hstore
  obtain ⟨d', hstore, hprometheus⟩ := Disk.storeAll_append.1 hstore
  obtain ⟨d'', hresult, hjson⟩ := Disk.storeAll_append.1 hstore
  rw [report_eq]
  apply (stores_writeAsked _ _ _ _ hresult).bind
  intro c hc
  rw [← hc] at hjson
  have hmetrics : Stores (if o.printMetrics then logMetrics metrics else pure ()) c c.disk := by
    split
    · exact stores_logMetrics metrics
    · exact .pure c
  apply hmetrics.bind
  intro c' hc'
  rw [← hc'] at hjson
  apply (stores_writeAsked _ _ _ _ hjson).bind
  intro c'' hc''
  rw [← hc''] at hprometheus
  exact stores_writeAsked _ _ _ _ hprometheus

/-- The warning of a validator that is still pending. -/
def pendingWarning (h : Host) (name : String) : LogEntry :=
  ⟨.warn, "Pending validator: " ++ name, [("run_id", Text.quoted h.runId)]⟩

theorem run_pending (names : List String) :
    (names.forM fun name => Script.log .warn ("Pending validator: " ++ name)
      [("run_id", Text.quoted h.runId)]).run c =
        (.ok (), { c with log := c.log ++ names.map h.pendingWarning }) :=
  Script.run_forM_log .warn ("Pending validator: " ++ ·) _ names

/-- A run ends with a warning for each pending validator, and with an error unless it is a
success. -/
theorem run_conclude (outcome : Outcome) : ∃ r c', (h.conclude outcome).run c = (r, c') ∧
    c'.disk = c.disk ∧ c'.printed = c.printed ∧
    c'.warnings = c.warnings ++ outcome.pendingValidators.map h.pendingWarning ∧
    (r = .ok () ↔ outcome.isSuccess = true) := by
  have hwarnings : (outcome.pendingValidators.map h.pendingWarning).filter (·.level = .warn) =
      outcome.pendingValidators.map h.pendingWarning := by
    rw [List.filter_eq_self, List.forall_mem_map]
    intro name _
    rfl
  rw [conclude, Script.run_bind_ok (run_pending _)]
  generalize hpending : outcome.pendingValidators.map h.pendingWarning = warnings at hwarnings
  have hwarned :
      ({ c with log := c.log ++ warnings } : Console).warnings = c.warnings ++ warnings := by
    rw [Console.warnings, List.filter_append, hwarnings, Console.warnings]
  split
  next hsuccess =>
    obtain ⟨c', hrun, hdisk, hprinted, hsame⟩ :=
      Stores.log (c := { c with log := c.log ++ warnings })
        .info (by decide) "Pipeline completed" [("run_id", Text.quoted h.runId)]
    exact ⟨.ok (), c', hrun, hdisk, hprinted, hsame.trans hwarned, by simp [hsuccess]⟩
  next hfailed =>
    obtain ⟨c', hrun, hdisk, hprinted, hsame⟩ : Stores (outcome.errors.forM fun error =>
        Script.log .error error [("run_id", Text.quoted h.runId)])
          { c with log := c.log ++ warnings } c.disk := by
      apply Stores.forM
      intro error _ c
      exact .log _ (by decide) error _
    refine ⟨_, c', (Script.run_bind_ok hrun).trans (Script.run_fail _), hdisk, hprinted,
      hsame.trans hwarned, ?_⟩
    simp [hfailed]

end Host

end CommandLine

end DataPipeline
