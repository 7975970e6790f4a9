import DataPipeline.Proofs.Node.Drained
import DataPipeline.Proofs.Node.Logged
import DataPipeline.Proofs.Node.Passages
import DataPipeline.Proofs.Node.Reconciled

namespace DataPipeline

open Activity

namespace Verdict

def isFailed : Verdict → Bool
  | failed _ => true
  | passed | pending _ => false

/-- What there is to report of the verdict of a validator. -/
def error? (validator : String) : Verdict → Option String
  | failed reason => some (validator ++ " validation failed: " ++ reason)
  | passed | pending _ => none

def pending? : Verdict → Option String
  | pending name => some name
  | passed | failed _ => none

theorem error?_of_not_failed {validator : String} {v : Verdict} (h : v.isFailed = false) :
    v.error? validator = none := by
  cases v with
  | failed reason => cases h
  | passed | pending => rfl

end Verdict

theorem Outcome.recordVerdict_eq (o : Outcome) (validator : String) (v : Verdict) :
    o.recordVerdict validator v =
      { o with
        isValidationSuccess := o.isValidationSuccess && !v.isFailed
        pendingValidators := o.pendingValidators ++ v.pending?.toList
        errors := o.errors ++ (v.error? validator).toList } := by
  obtain ⟨_, _, _, _, _, _⟩ := o
  cases v <;> simp [recordVerdict, Verdict.isFailed, Verdict.pending?, Verdict.error?]

/-- What a stage with a log can do while it is drained. -/
inductive Op.OfDrain (place name : String) : Op → Prop where
  | plugin {op} (h : op.OfPlugin) : OfDrain place name op
  | offer (batch : Batch) : OfDrain place name (.offer place batch)
  | count (records : Nat) : OfDrain place name (.count place name (.batch records))
  | call (c : Call) (hgenerator : c ≠ .askGenerator) (hdatajet : c ≠ .askDatajet) :
      OfDrain place name (.offer (ledger place) c.entry)

namespace Stage

variable (s : Stage) (settings : RunSettings) (ctx : RunContext)

/-- The outcome of a stage by the verdicts of its validators, before it is run. -/
def judgement (first second : Verdict) : Outcome where
  stage := (Node.stage s).descriptor
  isValidationSuccess := !first.isFailed && !second.isFailed
  pendingValidators := first.pending?.toList ++ second.pending?.toList
  errors := (first.error? s.generator.name).toList ++ (second.error? s.datajet.name).toList

/-- Both validators of a stage have been asked, first that of the generator, and these are their
verdicts. One that is cut off has failed. Nothing was counted meanwhile. -/
structure Consulted (start : Nat) (first second : Verdict) (es : List Event)
    (finish : Nat) : Prop where
  verdicts : ∃ first? second? es₁ t es₂,
    ((s.generator.validate ctx).within settings.stageTimeoutMs).Passes start
      (some first?) es₁ t ∧
    ((s.datajet.validate ctx).within settings.stageTimeoutMs).Passes t
      (some second?) es₂ finish ∧
    first = settle settings.stageTimeoutMs first? ∧
    second = settle settings.stageTimeoutMs second? ∧
    unmarked Op.IsTake es = es₁ ++ es₂
  calls : log s.path.text es = [.askGenerator, .askDatajet]
  uncounted : ∀ place, counted place es = []

/-- A logged run of a stage: without a limit a validator may never settle; if one has failed,
the stage has done no more than ask both; otherwise it is drained. -/
inductive Gated (x : Passage Outcome) : Prop where
  | unsettled (hlimit : settings.stageTimeoutMs = none) (hresult : x.result = none)
      (hcalls : log s.path.text x.events = [.askGenerator] ∨
        log s.path.text x.events = [.askGenerator, .askDatajet])
      (huncounted : ∀ place, counted place x.events = [])
  | refused (first second : Verdict) (es : List Event)
      (hconsulted : s.Consulted settings ctx x.start first second es x.finish)
      (hfailed : first.isFailed = true ∨ second.isFailed = true)
      (hevents : x.events =
        es ++ [⟨x.finish, .count s.path.text (Node.stage s).name .invalid, ()⟩])
      (hresult : x.result = some
        { stage := (Node.stage s).descriptor
          isValidationSuccess := false
          isExecutionSuccess := false
          pendingValidators := first.pending?.toList ++ second.pending?.toList
          errors := (first.error? s.generator.name).toList ++
            (second.error? s.datajet.name).toList })
      (hcalls : log s.path.text x.events = [.askGenerator, .askDatajet])
      (hcounted : ∀ place c?, (counted place x.events).foldl recount c? =
        if s.path.text = place then
          let m := c?.getD { stage := (Node.stage s).name }
          some { m with validationFailures := m.validationFailures + 1 }
        else c?)
  | drained (first second : Verdict) (es es' : List Event) (t : Nat)
      (errors? : Option (Option (List String)))
      (hconsulted : s.Consulted settings ctx x.start first second es t)
      (hfirst : first.isFailed = false) (hsecond : second.isFailed = false)
      (hdrain : ((s.logged.drain (Node.stage s).name ctx).within settings.stageTimeoutMs).Passes
        t errors? es' x.finish)
      (hevents : x.events = es ++ es' ++ errors?.toList.map fun errors? =>
        ⟨x.finish, .count s.path.text (Node.stage s).name
          (.call !(errors?.getD [cutMessage settings]).isEmpty), ()⟩)
      (hresult : x.result =
        errors?.map fun errors? => (errors?.getD [cutMessage settings]).foldl Outcome.fail
        { stage := (Node.stage s).descriptor
          pendingValidators := first.pending?.toList ++ second.pending?.toList })
      (hcalls : ∀ c ∈ log s.path.text es', c ≠ .askGenerator ∧ c ≠ .askDatajet)

variable {s settings ctx}

theorem verdict_eq (first? second? : Option Verdict) : s.verdict settings first? second? =
    s.judgement (settle settings.stageTimeoutMs first?)
      (settle settings.stageTimeoutMs second?) := by
  rw [verdict, Outcome.recordVerdict_eq, Outcome.recordVerdict_eq]
  rfl

theorem judgement_passed {first second : Verdict} (hfirst : first.isFailed = false)
    (hsecond : second.isFailed = false) : s.judgement first second =
      { stage := (Node.stage s).descriptor
        pendingValidators := first.pending?.toList ++ second.pending?.toList } := by
  rw [judgement, hfirst, hsecond, Verdict.error?_of_not_failed hfirst,
    Verdict.error?_of_not_failed hsecond]
  rfl

theorem only_handOn {name : String} (hs : s.OfPlugins) (i : Nat) :
    (s.logged.handOn name ctx i).Only (Op.OfDrain s.path.text name) := by
  apply And.intro (.call (.pull i) nofun nofun)
  intro _
  apply ((hs.pull ctx i).only.mono fun _ => .plugin).bind
  intro item
  cases item with
  | error c => trivial
  | ok batch =>
    refine ⟨.offer batch, fun earlier => ⟨.call (.transmit batch) nofun nofun, fun _ => ?_⟩⟩
    change (((s.datajet.transmit earlier batch ctx).bind _).bind _).Only _
    rw [bind_bind]
    apply ((hs.transmit earlier batch ctx).only.mono fun _ => .plugin).bind
    intro result
    apply And.intro (.call (.returned batch _) nofun nofun)
    intro _
    cases result with
    | error c => trivial
    | ok _ => exact ⟨.count _, fun _ => trivial⟩

theorem only_drainFrom {name : String} (hs : s.OfPlugins) (n i : Nat) :
    (s.logged.drainFrom name ctx (s.logged.generator.batches ctx) n i).Only
      (Op.OfDrain s.path.text name) := by
  induction n generalizing i with
  | zero => trivial
  | succ n ih =>
    rw [drainFrom_handOn]
    apply (only_handOn hs i).bind
    intro d
    split
    · trivial
    · exact (ih (i + 1)).bind fun _ => trivial

theorem not_asked_of_drain {es : List Event} {name : String} {c : Call}
    (h : ∀ e ∈ es, e.op.OfDrain s.path.text name) (hc : c ∈ log s.path.text es) :
    c ≠ .askGenerator ∧ c ≠ .askDatajet := by
  obtain ⟨e, he, hcall⟩ := List.mem_filterMap.1 hc
  obtain ⟨t, op, answer⟩ := e
  have hop : op.OfDrain s.path.text name := h _ he
  cases hop with
  | plugin hop =>
    rw [Event.call?, hop.offered?] at hcall
    cases hcall
  | offer batch =>
    cases (call?_offer s).symm.trans hcall
  | count => cases hcall
  | call c' hgenerator hdatajet =>
    cases call?_entry.symm.trans hcall
    exact ⟨hgenerator, hdatajet⟩

theorem logged_within {α : Type} {place : String} {c : Call} (p : Activity α)
    (limit : Option Nat) :
    (p.logged place c).within limit = (p.within limit).logged place c := by
  cases limit with
  | none => rfl
  | some ms => rfl

theorem limit_of_passes_none {α : Type} {p : Activity α} {limit : Option Nat} {t t' : Nat}
    {es : List Event} (h : (p.within limit).Passes t none es t') : limit = none := by
  cases limit with
  | none => rfl
  | some ms =>
    obtain ⟨_, hnone, _⟩ := (ensures_cutAfter p ms).passes h
    cases hnone

variable {first second : Verdict} {r : Option Outcome} {es : List Event} {t t' : Nat}

theorem passes_proceed_failed (hfailed : first.isFailed = true ∨ second.isFailed = true)
    (h : (s.logged.proceed (fun _ p => p.within settings.stageTimeoutMs) settings ctx
      (s.judgement first second)).Passes t r es t') :
    t' = t ∧ es = [⟨t, .count s.path.text (Node.stage s).name .invalid, ()⟩] ∧
      r = some { s.judgement first second with
        isValidationSuccess := false, isExecutionSuccess := false } := by
  have hinvalid : (s.judgement first second).isValidationSuccess = false := by
    rcases hfailed with hfirst | hsecond
    · simp [judgement, hfirst]
    · simp [judgement, hsecond]
  rw [proceed, hinvalid] at h
  cases h with
  | act answer h =>
    cases h
    rw [← hinvalid]
    exact ⟨rfl, rfl, rfl⟩

theorem passes_proceed_passed (hfirst : first.isFailed = false)
    (hsecond : second.isFailed = false)
    (h : (s.logged.proceed (fun _ p => p.within settings.stageTimeoutMs) settings ctx
      (s.judgement first second)).Passes t r es t') :
    ∃ errors? es',
      ((s.logged.drain (Node.stage s).name ctx).within settings.stageTimeoutMs).Passes t
        errors? es' t' ∧
      es = es' ++ (errors?.toList.map fun errors? => ⟨t', .count s.path.text (Node.stage s).name
        (.call !(errors?.getD [cutMessage settings]).isEmpty), ()⟩) ∧
      r = errors?.map fun errors? => (errors?.getD [cutMessage settings]).foldl Outcome.fail
        (s.judgement first second) := by
  have hvalid : (s.judgement first second).isValidationSuccess = true := by
    simp [judgement, hfirst, hsecond]
  rw [proceed, hvalid] at h
  change (((s.logged.drain _ ctx).within _).bind _).Passes t r es t' at h
  rcases passes_bind h with ⟨errors?, es', t₁, es₂, hdrain, hcount, rfl⟩ | ⟨rfl, hstall⟩
  · cases hcount with
    | act answer hdone =>
      cases hdone
      exact ⟨some errors?, es', hdrain, rfl, rfl⟩
  · exact ⟨none, es, hstall, (List.append_nil es).symm, rfl⟩

theorem passes_ask {α β : Type} {place : String} {c : Call} {p : Activity α}
    {limit : Option Nat} {f : Option α → Activity β} {r : Option β} (hp : p.OfPlugin)
    (h : (((p.logged place c).within limit).bind f).Passes t r es t') :
    ∃ (answer : List Batch) (es' : List Event),
      es = ⟨t, .offer (ledger place) c.entry, answer⟩ :: es' ∧
      ((∃ a es₁ t₁ es₂, (p.within limit).Passes t (some a) es₁ t₁ ∧ (∀ e ∈ es₁, e.op.OfPlugin) ∧
        (f a).Passes t₁ r es₂ t' ∧ es' = es₁ ++ es₂) ∨
      limit = none ∧ r = none ∧ ∀ e ∈ es', e.op.OfPlugin) := by
  rw [logged_within] at h
  cases h with
  | act answer h =>
    refine ⟨answer, _, rfl, ?_⟩
    rcases passes_bind h with ⟨a, es₁, t₁, es₂, ha, hf, rfl⟩ | ⟨hr, hstall⟩
    · exact .inl ⟨a, es₁, t₁, es₂, ha, (hp.only.within _).passes ha, hf, rfl⟩
    · exact .inr ⟨limit_of_passes_none hstall, hr, (hp.only.within _).passes hstall⟩

theorem log_calls {place : String} {c c' : Call} {es₁ es₂ : List Event}
    {answer answer' : List Batch} (hes : es = ⟨t, .offer (ledger place) c.entry, answer⟩ ::
      (es₁ ++ ⟨t', .offer (ledger place) c'.entry, answer'⟩ :: es₂))
    (h₁ : ∀ e ∈ es₁, e.op.OfPlugin) (h₂ : ∀ e ∈ es₂, e.op.OfPlugin) :
    log place es = [c, c'] ∧ (∀ q, counted q es = []) ∧ unmarked Op.IsTake es = es₁ ++ es₂ := by
  subst hes
  and_intros
  · rw [log_entry, log_append, log_plugins h₁, log_entry, log_plugins h₂, List.nil_append]
  · intro q
    rw [counted_entry, counted_append, counted_plugins h₁, counted_entry, counted_plugins h₂]
    rfl
  · rw [unmarked_entry, unmarked_append, unmarked_plugins h₁, unmarked_entry,
      unmarked_plugins h₂]

theorem consulted_of_passes {first? second? : Option Verdict} {es₁ es₂ : List Event}
    {start : Nat} (answer answer' : List Batch)
    (hfirst : ((s.generator.validate ctx).within settings.stageTimeoutMs).Passes start
      (some first?) es₁ t)
    (hplugins₁ : ∀ e ∈ es₁, e.op.OfPlugin)
    (hsecond : ((s.datajet.validate ctx).within settings.stageTimeoutMs).Passes t
      (some second?) es₂ t')
    (hplugins₂ : ∀ e ∈ es₂, e.op.OfPlugin) :
    s.Consulted settings ctx start (settle settings.stageTimeoutMs first?)
      (settle settings.stageTimeoutMs second?)
      (⟨start, .offer (ledger s.path.text) Call.askGenerator.entry, answer⟩ ::
        (es₁ ++ ⟨t, .offer (ledger s.path.text) Call.askDatajet.entry, answer'⟩ :: es₂))
      t' := by
  obtain ⟨hcalls, huncounted, hunmarked⟩ := log_calls rfl hplugins₁ hplugins₂
  exact ⟨⟨first?, second?, es₁, t, es₂, hfirst, hsecond, rfl, rfl, hunmarked⟩,
    hcalls, huncounted⟩

/-- When both validators have been asked, the stage goes on or not. -/
theorem Consulted.gated (hs : s.OfPlugins) {x : Passage Outcome} {es' : List Event}
    (h : s.Consulted settings ctx x.start first second es t) (hevents : x.events = es ++ es')
    (hproceed : (s.logged.proceed (fun _ p => p.within settings.stageTimeoutMs) settings ctx
      (s.judgement first second)).Passes t x.result es' x.finish) : s.Gated settings ctx x := by
  by_cases hfailed : first.isFailed = true ∨ second.isFailed = true
  · obtain ⟨hfinish, rfl, hresult⟩ := passes_proceed_failed hfailed hproceed
    subst hfinish
    apply Gated.refused first second es h hfailed hevents hresult
    · rw [hevents, log_append, h.calls]
      rfl
    · intro place c?
      rw [hevents, counted_append, h.uncounted, List.nil_append]
      by_cases hplace : s.path.text = place
      · simp [counted, Op.counted?, hplace, recount, StageMetrics.add]
      · simp [counted, Op.counted?, hplace]
  · rw [not_or, Bool.not_eq_true, Bool.not_eq_true] at hfailed
    obtain ⟨hfirst, hsecond⟩ := hfailed
    obtain ⟨errors?, drained, hdrain, rfl, hresult⟩ :=
      passes_proceed_passed hfirst hsecond hproceed
    apply Gated.drained first second es drained t errors? h hfirst hsecond hdrain
    · rw [hevents, List.append_assoc]
    · rw [hresult, judgement_passed hfirst hsecond]
    · intro c hc
      exact not_asked_of_drain (((only_drainFrom hs _ 0).within _).passes hdrain) hc

theorem gated_of_passes (hs : s.OfPlugins) {x : Passage Outcome}
    (h : x.Of (s.logged.execute settings ctx)) :
    s.Gated settings ctx x := by
  obtain ⟨answer, rest, hevents, hgenerator | ⟨hlimit, hresult, hplugins⟩⟩ :=
    passes_ask (hs.generator ctx) h
  · obtain ⟨first?, es₁, t₁, es₂, hfirst, hplugins₁, hasked, rfl⟩ := hgenerator
    obtain ⟨answer', rest, rfl, hdatajet | ⟨hlimit, hresult, hplugins₂⟩⟩ :=
      passes_ask (hs.datajet ctx) hasked
    · obtain ⟨second?, es₂, t₂, es₃, hsecond, hplugins₂, hproceed, rfl⟩ := hdatajet
      have hproceed :
          (s.logged.proceed (fun _ p => p.within settings.stageTimeoutMs) settings ctx
        (s.verdict settings first? second?)).Passes t₂ x.result es₃ x.finish := hproceed
      rw [verdict_eq] at hproceed
      apply (consulted_of_passes answer answer' hfirst hplugins₁ hsecond hplugins₂).gated
        hs _ hproceed
      rw [hevents, List.cons_append, List.append_assoc, List.cons_append]
    · obtain ⟨hcalls, huncounted, _⟩ := log_calls hevents hplugins₁ hplugins₂
      exact .unsettled hlimit hresult (.inr hcalls) huncounted
  · apply Gated.unsettled hlimit hresult
    · left
      rw [hevents, log_entry, log_plugins hplugins]
    · intro place
      rw [hevents, counted_entry, counted_plugins hplugins]

end Stage

/-- A run of a stage does what it would do with a log, and if it keeps one, it is gated. -/
def StageRun.Gated (settings : RunSettings) (r : StageRun) : Prop :=
  ∃ x : Passage Outcome, x.Of (r.stage.logged.execute settings r.ctx) ∧
    x.start = r.passage.start ∧ x.finish = r.passage.finish ∧ x.result = r.passage.result ∧
    unmarked Op.IsTake x.events = r.passage.events ∧ r.stage.Gated settings r.ctx x

/-- Every run of a pipeline, whether it ends or not, consists of runs of its stages that take
turns, and in each of them validation gates execution. -/
theorem execute_gated (registry : Registry) (hw : registry.wrappers = Registry.builtin.wrappers)
    (schema : Schema) (context : BuildContext) (n : Node)
    (hn : (buildPipeline registry schema context).result = .ok n)
    (hs : ∀ s ∈ n.stages, s.OfPlugins) (settings : RunSettings) (ctx : RunContext) (w : World) :
    ∃ finish rs, n.Consists settings
        { start := w.now
          result := ((n.execute settings ctx).run w).map (·.1)
          events := (n.execute settings ctx).history w
          finish } rs ∧
      ∀ r ∈ rs, r.Gated settings := by
  obtain ⟨finish, hpasses, _⟩ := passes_history (n.execute settings ctx) w
  have hof : Passage.Of ⟨w.now, ((n.execute settings ctx).run w).map (·.1),
    (n.execute settings ctx).history w, finish⟩
    (n.execute settings ctx) := hpasses
  obtain ⟨rs, hrs⟩ := Node.consists_execute ((buildPipeline_builtAt hn).shaped hw) hof
  refine ⟨finish, rs, hrs, ?_⟩
  intro r hr
  obtain ⟨hmem, hstage⟩ := hrs.runs r hr
  obtain ⟨events, hlogged, hunmarked⟩ :=
    (Stage.annotates_execute (hs _ hmem) settings).passes hstage
  refine ⟨{ r.passage with events }, hlogged, rfl, rfl, rfl, hunmarked, ?_⟩
  exact Stage.gated_of_passes (hs _ hmem) hlogged

/-- A generator that is not ready in the first iteration, and a sink that is still to be
approved, beside the built-in wrappers. -/
def heldRegistry : Registry :=
  { Registry.builtin with
    generators :=
      { kind := .generator
        templates := [⟨"late", [], fun _ _ => .ok
          { name := "late"
            validate := fun ctx =>
              .done (if (ctx.bindings.get? "iteration").bind Json.asNat? = some 0 then
                .failed "not ready"
                else .passed)
            batches := fun _ => .ofFunction 1 fun _ => [.nat 1] }⟩] }
    datajets :=
      { kind := .datajet
        templates := [⟨"held", [], fun _ _ => .ok
          { name := "held"
            validate := fun _ => .done (.pending "approval")
            transmit := fun _ _ _ => .done (.ok ()) }⟩] } }

/-- A stage that is refused and then drained. -/
def heldStage : Schema where
  component := some "wrap"
  config := some (.object [("wrapper", .object [("name", .string "repeat")])])
  child := some { generator := some ⟨"late", none⟩, datajet := some ⟨"held", none⟩ }

theorem execute_gated_heldStage :
    heldRegistry.wrappers = Registry.builtin.wrappers ∧ ∃ n,
      (buildPipeline heldRegistry heldStage (.mk "" "" {} none none)).result = .ok n ∧
      (∀ s ∈ n.stages, s.OfPlugins) ∧
      ∃ o w' finish rs, (n.execute {} {}).run {} = some (o, w') ∧
      n.Consists {} ⟨0, some o, (n.execute {} {}).history {}, finish⟩ rs ∧
      (∀ r ∈ rs, r.Gated {}) ∧
      (rs.map fun r => r.passage.result.map fun o => (o.errors, o.pendingValidators)) =
        [some (["late validation failed: not ready"], ["approval"]), some ([], ["approval"])] ∧
      w'.offeredAt "$.child" = [[.nat 1]] ∧
      ∃ m, ("$.child", m) ∈ w'.metrics.stages ∧ m.validationFailures = 1 ∧ m.calls = 1 := by
  have hbuild :
      ∃ n, (buildPipeline heldRegistry heldStage (.mk "" "" {} none none)).result = .ok n ∧
      (∀ s ∈ n.stages, s.OfPlugins) ∧ ∃ o w', (n.execute {} {}).run {} = some (o, w') ∧
      ((n.results o).map fun q => some (q.2.errors, q.2.pendingValidators)) =
        [some (["late validation failed: not ready"], ["approval"]), some ([], ["approval"])] ∧
      w'.offeredAt "$.child" = [[.nat 1]] ∧
      ∃ m, ("$.child", m) ∈ w'.metrics.stages ∧ m.validationFailures = 1 ∧ m.calls = 1 := by
    refine ⟨_, rfl, ?_, _, _, rfl, rfl, rfl, _, List.mem_cons_self, rfl, rfl⟩
    intro s hs
    cases List.mem_singleton.1 hs
    exact ⟨fun _ => trivial, fun _ _ => trivial, fun _ => trivial, fun _ _ _ => trivial⟩
  obtain ⟨n, hn, hplugins, o, w', hrun, hresults, htold⟩ := hbuild
  obtain ⟨finish, rs, hrs, hgated⟩ :=
    execute_gated heldRegistry rfl heldStage (.mk "" "" {} none none) n hn hplugins {} {} {}
  rw [hrun] at hrs
  refine ⟨rfl, n, hn, hplugins, o, w', finish, rs, hrun, hrs, hgated, ?_, htold⟩
  have hsame := congrArg (List.map fun q => q.2.map fun o => (o.errors, o.pendingValidators))
    (hrs.results o rfl)
  rw [List.map_map, List.map_map] at hsame
  exact hsame.symm.trans hresults

end DataPipeline
