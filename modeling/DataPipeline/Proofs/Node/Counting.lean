import DataPipeline.Proofs.Node.Feeds
import DataPipeline.Proofs.Node.Passages
import DataPipeline.Proofs.Node.Reconciled
import DataPipeline.Proofs.Plugin.Increment

namespace DataPipeline

open Activity

theorem Shuffle.counted {place : String} {parts : List (List Event)} {es : List Event}
    (h : Shuffle parts es) :
    Shuffle (parts.map (counted place)) (counted place es) := by
  have htold : List.Forall₂
      (fun part xs => part.filterMap (fun e : Event => e.op.counted? place) = xs.map id)
      parts (parts.map (DataPipeline.counted place)) := by
    rw [List.forall₂_map_right_iff, List.forall₂_same]
    exact fun part _ => (List.map_id _).symm
  obtain ⟨xs, hxs, hes⟩ := h.filterMap htold
  rw [List.map_id] at hes
  rwa [DataPipeline.counted, hes]

theorem sum_ite {α : Type} (P : α → Bool) (k : Nat) (l : List α) :
    (l.map fun a => if P a then k else 0).sum = l.countP P * k := by
  induction l with
  | nil => exact (Nat.zero_mul k).symm
  | cons a l ih =>
    rw [List.map_cons, List.sum_cons, ih, List.countP_cons]
    split
    · exact (Nat.add_comm _ _).trans (Nat.succ_mul _ _).symm
    · exact Nat.zero_add _

namespace Stage

variable {s : Stage} {settings : RunSettings} {ctx : RunContext} {x : Passage Outcome}
  {o : Outcome} {batches taken rest : List Batch} {granted : Event → Prop}

theorem counted_elsewhere (hs : s.OfPlugins) {place : String} (hplace : s.path.text ≠ place)
    (h : x.Of (s.execute settings ctx)) : counted place x.events = [] := by
  have hplugin {op : Op} (hop : op.OfPlugin) : op.counted? place = none := hop.counted? place
  have hpermits : s.Permits fun op => op.counted? place = none := by
    constructor
    case generator => exact fun ctx => (hs.generator ctx).only.mono fun _ => hplugin
    case pull => exact fun ctx i => (hs.pull ctx i).only.mono fun _ => hplugin
    case datajet => exact fun ctx => (hs.datajet ctx).only.mono fun _ => hplugin
    case transmit => exact fun earlier batch ctx =>
      (hs.transmit earlier batch ctx).only.mono fun _ => hplugin
    case offer => exact fun batch => rfl
    case count => exact fun name o => if_neg hplace
  exact List.filterMap_eq_nil_iff.2 ((hpermits.execute settings ctx).passes h)

/-- An execution of a stage comes to its end, and hands out batches in their order. The sink has
taken the first of them, one by one, and each was counted; it may have been at the next when it
was cut off. If the execution was not cut off, as it never is without a limit, then it is a
success and all were taken. -/
structure HandsOut (s : Stage) (settings : RunSettings) (ctx : RunContext)
    (batches : List Batch) (x : Passage Outcome) (o : Outcome)
    (taken rest : List Batch) : Prop where
  result : x.result = some o
  batches : taken ++ rest = batches
  dispenses : s.Dispenses ctx taken rest o x.events
  offered : ∃ more, more <+: rest ∧ offered s.path.text x.events = taken ++ more
  counted : counted s.path.text x.events =
    (taken.map fun batch => ((Node.stage s).name, .batch batch.length)) ++
      [((Node.stage s).name, o.occurrence)]
  ended : o.isSuccess = true ∧ rest = [] ∨ s.TimedOut settings o

theorem HandsOut.rest_eq_nil (h : s.HandsOut settings ctx batches x o taken rest)
    (hsuccess : o.isSuccess = true) :
    rest = [] := by
  rcases h.ended with ⟨_, hrest⟩ | hcut
  · exact hrest
  · cases hsuccess.symm.trans hcut.failed

theorem HandsOut.isSuccess (h : s.HandsOut settings ctx batches x o taken rest)
    (hnone : settings.stageTimeoutMs = none) : o.isSuccess = true := by
  rcases h.ended with ⟨hsuccess, _⟩ | hcut
  · exact hsuccess
  · exact absurd hnone hcut.limited

theorem HandsOut.sum_counted (h : s.HandsOut settings ctx batches x o taken rest)
    (hsuccess : o.isSuccess = true) {weight : Occurrence → Nat}
    (hweight : ∀ o : Outcome, weight o.occurrence = 0) :
    ((DataPipeline.counted s.path.text x.events).map fun y => weight y.2).sum =
      (batches.map fun batch => weight (.batch batch.length)).sum := by
  have hall : taken = batches := by
    rw [← h.batches, h.rest_eq_nil hsuccess, List.append_nil]
  rw [h.counted, hall, List.map_append, List.map_map, List.sum_append, List.map_singleton,
    List.sum_singleton, hweight, Nat.add_zero]
  rfl

theorem quota_eq_pulled {c : IncrementConfig} {ready : Nat → Batch} :
    s.quota (.ofFunction c.batchCount ready) = c.pulled s.settings.maxBatches := by
  rw [quota]
  cases s.settings.maxBatches with
  | none => rfl
  | some m => rfl

theorem handsOut_execute {c : IncrementConfig} (hg : s.generator.Increments c)
    (hs : s.OfPlugins) (hd : s.datajet.NeverFails granted) (h : x.Of (s.execute settings ctx))
    (hgranted : ∀ e ∈ x.events, granted e) :
    ∃ o taken rest,
      s.HandsOut settings ctx (c.batches s.settings.maxBatches) x o taken rest := by
  obtain ⟨_, hplugin⟩ := hg.plugin
  obtain ⟨o, taken, rest, hresult, hbatches, hdispenses, hended⟩ := dispenses_execute hs hd
    (fun ctx => (hplugin ctx).1) (fun ctx => (hplugin ctx).2) h hgranted
  rw [quota_eq_pulled] at hbatches
  refine ⟨o, taken, rest, hresult, hbatches, hdispenses, hdispenses.offered hs, ?_, hended⟩
  rw [hdispenses.counted hs, if_pos rfl]

end Stage

namespace Node

variable {n : Node} {settings : RunSettings} {x : Passage Outcome} {rs : List StageRun}
  {s : Stage} {o : Outcome} {p : NodePath}

theorem Consists.length_resultsAt (h : n.Consists settings x rs) (ho : x.result = some o) :
    (n.resultsAt o p).length = rs.countP (·.stage.path = p) := by
  have hresults := congrArg (List.countP fun y => decide (y.1.path = p)) (h.results o ho)
  rw [List.countP_map, List.countP_map] at hresults
  rw [Node.resultsAt, List.length_map, ← List.countP_eq_length_filter]
  exact hresults

theorem Consists.mem_resultsAt (h : n.Consists settings x rs) (ho : x.result = some o)
    {q : Outcome} :
    q ∈ n.resultsAt o p ↔ ∃ r ∈ rs, r.stage.path = p ∧ r.passage.result = some q := by
  have hmem (s : Stage) :
      (s, q) ∈ n.results o ↔ ∃ r ∈ rs, r.stage = s ∧ r.passage.result = some q := by
    have hmap : (s, some q) ∈ (n.results o).map (fun y => (y.1, some y.2)) ↔
        (s, some q) ∈ rs.map fun r => (r.stage, r.passage.result) := by rw [h.results o ho]
    simpa using hmap
  rw [Node.mem_resultsAt]
  constructor
  · rintro ⟨s, rfl, hq⟩
    obtain ⟨r, hr, rfl, hresult⟩ := (hmem s).1 hq
    exact ⟨r, hr, rfl, hresult⟩
  · rintro ⟨r, hr, rfl, hresult⟩
    exact ⟨r.stage, rfl, (hmem _).2 ⟨r, hr, rfl, hresult⟩⟩

theorem Consists.sum_counted (h : n.Consists settings x rs) (ho : x.result = some o)
    {weight : Occurrence → Nat} {k : Nat}
    (hat : ∀ r ∈ rs, r.stage.path = p →
      ((counted p.text r.passage.events).map fun y => weight y.2).sum = k)
    (helsewhere : ∀ r ∈ rs, r.stage.path ≠ p → counted p.text r.passage.events = []) :
    ((counted p.text x.events).map fun y => weight y.2).sum = (n.resultsAt o p).length * k := by
  rw [h.length_resultsAt ho, ← sum_ite, h.events.counted.sum_map, List.map_map, List.map_map]
  congr 1
  apply List.map_congr_left
  intro r hr
  by_cases hp : r.stage.path = p
  · rw [if_pos (decide_eq_true hp)]
    exact hat r hr hp
  · rw [if_neg (by simpa using hp), Function.comp_apply, Function.comp_apply,
      helsewhere r hr hp]
    rfl

/-- A stage each of whose executions hands out some batches and is a success adds as many times
to a counter as it was run what the batches weigh. -/
theorem tally_of_handsOut {ctx : RunContext} {w w' : World} {batches : List Batch}
    (hnodup : (n.stages.map (·.path.text)).Nodup) (hs : ∀ s ∈ n.stages, s.OfPlugins)
    (hmem : s ∈ n.stages) (hrun : (n.execute settings ctx).run w = some (o, w'))
    (h : n.Consists settings ⟨w.now, some o, (n.execute settings ctx).history w, w'.now⟩ rs)
    (hhands : ∀ r ∈ rs, r.stage = s →
      ∃ q taken rest, s.HandsOut settings r.ctx batches r.passage q taken rest)
    (hsuccess : ∀ q ∈ n.resultsAt o s.path, q.isSuccess = true)
    {counter : StageMetrics → Nat} {weight : Occurrence → Nat}
    (hadd : ∀ m o, counter (m.add o) = counter m + weight o)
    (hstart : ∀ name, counter { stage := name } = 0)
    (hweight : ∀ q : Outcome, weight q.occurrence = 0) :
    w'.tally s.path.text counter = w.tally s.path.text counter +
      (n.resultsAt o s.path).length *
        (batches.map fun batch => weight (.batch batch.length)).sum := by
  rw [World.tally_run hrun hadd hstart]
  congr 1
  apply h.sum_counted rfl
  · intro r hr hpath
    have hsame : r.stage = s :=
      List.inj_on_of_nodup_map hnodup (h.runs r hr).1 hmem (congrArg NodePath.text hpath)
    obtain ⟨q, taken, rest, hands⟩ := hhands r hr hsame
    subst hsame
    have hq := (h.mem_resultsAt rfl).2 ⟨r, hr, rfl, hands.result⟩
    exact hands.sum_counted (hsuccess q hq) hweight
  · intro r hr hpath
    have hne : r.stage.path.text ≠ s.path.text := fun heq => hpath (NodePath.text_injective heq)
    exact Stage.counted_elsewhere (hs _ (h.runs r hr).1) hne (h.runs r hr).2

end Node

/-- An increment generator counts without gaps, and afresh in each execution of a stage that
drains it, by itself or through references. Its batches have at least one record. The batches
that are pulled are as many as are configured and as the limit allows, each is of the configured
size, and put together they count up from zero; if the records that are pulled can be counted in
a word then the bounds of each of these batches are computed in words without overflow. An
execution whose sink never fails hands these batches out, and all of them if it is a success, as
it is without a time limit. So in a run of a pipeline in which the stage is repeated or has
others beside it, and succeeds, its counters grow by what is pulled as many times as the repeats
around it are configured to repeat. -/
theorem execute_increments (c : IncrementConfig) (s : Stage) (hg : s.generator.Increments c)
    (hs : s.OfPlugins) (granted : Event → Prop) (hd : s.datajet.NeverFails granted)
    (hbound : c.pulled s.settings.maxBatches * c.batchSize < Word.limit 64) :
    1 ≤ c.batchSize ∧
    ((c.batches s.settings.maxBatches).length = c.pulled s.settings.maxBatches ∧
      (∀ batch ∈ c.batches s.settings.maxBatches, batch.length = c.batchSize) ∧
      (c.batches s.settings.maxBatches).flatten =
        (List.range (c.pulled s.settings.maxBatches * c.batchSize)).map c.record) ∧
    (∀ i < c.pulled s.settings.maxBatches, ∃ start stop, c.bounds? i = some (start, stop) ∧
      (c.batches s.settings.maxBatches)[i]? =
        some ((List.range' start (stop - start)).map c.record)) ∧
    (∀ settings ctx (x : Passage Outcome), x.Of (s.execute settings ctx) →
      (∀ e ∈ x.events, granted e) →
      ∃ o taken rest,
        s.HandsOut settings ctx (c.batches s.settings.maxBatches) x o taken rest) ∧
    ∀ registry : Registry, registry.wrappers = Registry.builtin.wrappers → ∀ schema context n,
      (buildPipeline registry schema context).result = .ok n → s ∈ n.stages →
      (∀ s ∈ n.stages, s.OfPlugins) →
      ∀ settings ctx w o w', (n.execute settings ctx).run w = some (o, w') →
      (∀ e ∈ (n.execute settings ctx).history w, granted e) →
      (∃ rs, n.Consists settings
        ⟨w.now, some o, (n.execute settings ctx).history w, w'.now⟩ rs ∧
        ∀ r ∈ rs, r.stage = s → ∃ q taken rest,
          s.HandsOut settings r.ctx (c.batches s.settings.maxBatches) r.passage q taken rest) ∧
      (settings.stageTimeoutMs = none → ∀ q ∈ n.resultsAt o s.path, q.isSuccess = true) ∧
      ((∀ q ∈ n.resultsAt o s.path, q.isSuccess = true) → ∃ times, (s, times) ∈ n.runs ∧
        times = (schema.timesTo s.path.hops).prod ∧ (n.resultsAt o s.path).length = times ∧
        w'.tally s.path.text (·.batches) =
          w.tally s.path.text (·.batches) + times * c.pulled s.settings.maxBatches ∧
        w'.tally s.path.text (·.records) =
          w.tally s.path.text (·.records) +
            times * (c.pulled s.settings.maxBatches * c.batchSize)) := by
  refine ⟨hg.plugin.1,
    ⟨IncrementConfig.length_batches, fun _ => IncrementConfig.length_of_mem_batches,
      IncrementConfig.flatten_batches⟩, ?_, fun _ _ _ => Stage.handsOut_execute hg hs hd, ?_⟩
  · intro i hi
    have hbounds := IncrementConfig.bounds?_of_lt hi hbound
    refine ⟨_, _, hbounds, ?_⟩
    rw [IncrementConfig.getElem?_batches hi, IncrementConfig.records_of_bounds hbounds]
  · intro registry hw schema context n hn hmem hall settings ctx w o w' hrun hgranted
    have hbuilt := buildPipeline_builtAt hn
    have hnodup := hbuilt.nodup_places.2
    obtain ⟨hreports, _⟩ := Node.faithful_of_ends hw hbuilt (ends_of_run hrun)
    obtain ⟨rs, hrs⟩ :=
      Node.consists_execute (x := ⟨_, _, _, _⟩) (hbuilt.shaped hw) (passes_of_run hrun)
    have hhands : ∀ r ∈ rs, r.stage = s → ∃ q taken rest,
        s.HandsOut settings r.ctx (c.batches s.settings.maxBatches) r.passage q taken rest := by
      rintro r hr rfl
      apply Stage.handsOut_execute hg hs hd (hrs.runs r hr).2
      exact fun e he => hgranted e (hrs.events.mem (List.mem_map_of_mem hr) he)
    refine ⟨⟨rs, hrs, hhands⟩, ?_, ?_⟩
    · intro hnone q hq
      obtain ⟨r, hr, hpath, hresult⟩ := (hrs.mem_resultsAt rfl).1 hq
      have hsame : r.stage = s :=
        List.inj_on_of_nodup_map hnodup (hrs.runs r hr).1 hmem (congrArg NodePath.text hpath)
      obtain ⟨q', _, _, hands⟩ := hhands r hr hsame
      cases hresult.symm.trans hands.result
      exact hands.isSuccess hnone
    · intro hsuccess
      have hr := hreports.mem_runs hnodup hmem
      refine ⟨_, hr, times_of_mem_runs hw hn hr, rfl, ?_, ?_⟩
      · rw [Node.tally_of_handsOut hnodup hall hmem hrun hrs hhands hsuccess
          StageMetrics.batches_add (fun _ => rfl) Outcome.batches_occurrence]
        simp [Occurrence.batches, IncrementConfig.length_batches]
      · rw [Node.tally_of_handsOut hnodup hall hmem hrun hrs hhands hsuccess
          StageMetrics.records_add (fun _ => rfl) Outcome.records_occurrence]
        exact congrArg (fun k => _ + _ * k) IncrementConfig.sum_length_batches

/-- A stage that is run twice. It drains an entry that refers to an entry of its own, which
counts up by twos, five times; but the stage pulls three batches only. -/
def countedTwice : Schema where
  component := some "wrap"
  library :=
    [{ Schema.ofGenerator (some "b") ⟨"library", some [("referenceId", .string "a")]⟩ with
        library := [.ofGenerator (some "a")
          ⟨"increment", some [("batchSize", .nat 2), ("batchCount", .nat 5)]⟩] }]
  config := some (.object [("wrapper", .object [("name", .string "repeat"),
    ("config", .object [("times", .nat 2)])])])
  child := some
    { generator := some ⟨"library", some [("referenceId", .string "b")]⟩
      datajet := some ⟨"discard", none⟩
      stage := some (.object [("maxBatches", .nat 3)]) }

/-- The stage that is built. -/
def countedStage : Stage where
  path := .hop .root .child
  generator := entryGenerator "b"
    (.generator (entryGenerator "a" (.generator (incrementGenerator ⟨2, 5, "value"⟩))))
  datajet := discardDatajet
  settings := { maxBatches := some 3 }

theorem execute_increments_countedTwice : countedStage.generator.Increments ⟨2, 5, "value"⟩ ∧
    countedStage.OfPlugins ∧ countedStage.datajet.NeverFails Event.Granted ∧
    3 * 2 < Word.limit 64 ∧
    (IncrementConfig.batches ⟨2, 5, "value"⟩ (some 3)).flatten =
      (List.range 6).map (fun i => .object [("value", .nat i)]) ∧
    ∃ n o w', (buildPipeline Registry.builtin countedTwice (.mk "" "" {} none none)).result =
      .ok n ∧
      countedStage ∈ n.stages ∧ (n.execute {} {}).run {} = some (o, w') ∧
      (∀ e ∈ (n.execute {} {}).history {}, e.Granted) ∧
      (n.resultsAt o countedStage.path).length = 2 ∧
      w'.tally countedStage.path.text (·.batches) = 2 * 3 ∧
      w'.tally countedStage.path.text (·.records) = 2 * 6 := by
  have hcounts : (incrementGenerator ⟨2, 5, "value"⟩).Increments ⟨2, 5, "value"⟩ :=
    @Generator.Increments.made ⟨2, 5, "value"⟩
      [("batchSize", .nat 2), ("batchCount", .nat 5), ("key", .string "value")]
        (.mk "" "" {} none none) _ rfl rfl
  have hfirst :
      (entryGenerator "a" (.generator (incrementGenerator ⟨2, 5, "value"⟩))).Increments
        ⟨2, 5, "value"⟩ :=
    @Generator.Increments.referred _ [("referenceId", .string "a")]
      (.mk "" "" ⟨[("a", .generator (incrementGenerator ⟨2, 5, "value"⟩))]⟩ none none)
        _ _ _ _ rfl rfl rfl rfl hcounts
  have hsecond : countedStage.generator.Increments ⟨2, 5, "value"⟩ :=
    @Generator.Increments.referred _ [("referenceId", .string "b")]
      (.mk "" ""
        ⟨[("b",
          .generator (entryGenerator "a" (.generator (incrementGenerator ⟨2, 5, "value"⟩))))]⟩
        none none)
      _ _ _ _ rfl rfl rfl rfl hfirst
  have hbuild : ∃ n,
    (buildPipeline Registry.builtin countedTwice (.mk "" "" {} none none)).result = .ok n ∧
      countedStage ∈ n.stages := ⟨_, rfl, List.mem_cons_self⟩
  obtain ⟨n, hn, hmem⟩ := hbuild
  have hplugins := ofPlugins_built rfl hn
  have hsink : countedStage.datajet.NeverFails Event.Granted :=
    (within_built rfl hn _ hmem).neverFails
  have hbound :
      (IncrementConfig.mk 2 5 "value").pulled (some 3) * 2 < Word.limit 64 := by decide
  obtain ⟨_, ⟨_, _, hflatten⟩, _, _, hpipelines⟩ :=
    execute_increments ⟨2, 5, "value"⟩ countedStage hsecond
      (hplugins _ hmem) Event.Granted hsink hbound
  have hruns := hpipelines Registry.builtin rfl countedTwice _ n hn hmem hplugins {} {} {}
  refine ⟨hsecond, hplugins _ hmem, hsink, hbound, hflatten, n, ?_⟩
  have hgranted : ∀ e ∈ (n.execute {} {}).history {}, e.Granted := by
    cases hn
    decide +kernel
  cases hn
  obtain ⟨_, hsuccess, htally⟩ := hruns _ _ rfl hgranted
  obtain ⟨times, _, _, rfl, hbatches, hrecords⟩ := htally (hsuccess rfl)
  exact ⟨_, _, rfl, hmem, rfl, hgranted, rfl, hbatches, hrecords⟩

/-- A stage whose sink takes each of two batches, but slowly. -/
def slowCount : Stage where
  path := .root
  generator := incrementGenerator ⟨1, 2, "value"⟩
  datajet := { name := "sink", transmit := fun _ _ _ => .sleep 10 (.done (.ok ())) }
  settings := {}

/-- A sink that never fails may yet be too slow: where there is a time limit, not all batches
need be handed out and counted. -/
theorem not_forall_execute_increments :
    ¬∀ (c : IncrementConfig) (s : Stage) (granted : Event → Prop),
    s.generator.Increments c → s.OfPlugins → s.datajet.NeverFails granted →
    c.pulled s.settings.maxBatches * c.batchSize < Word.limit 64 →
    ∀ settings ctx w o w', (s.execute settings ctx).run w = some (o, w') →
      (∀ e ∈ (s.execute settings ctx).history w, granted e) →
      offered s.path.text ((s.execute settings ctx).history w) =
        c.batches s.settings.maxBatches ∧
        w'.tally s.path.text (·.batches) =
          w.tally s.path.text (·.batches) + c.pulled s.settings.maxBatches := by
  intro h
  have hcounts : slowCount.generator.Increments ⟨1, 2, "value"⟩ :=
    @Generator.Increments.made _ [("batchSize", .nat 1), ("batchCount", .nat 2),
      ("key", .string "value")]
      (.mk "" "" {} none none) _ rfl rfl
  have hplugins : slowCount.OfPlugins :=
    ⟨fun _ => trivial, fun _ _ => trivial, fun _ => trivial, fun _ _ _ => trivial⟩
  have hsink : slowCount.datajet.NeverFails fun _ => True := by
    constructor
    case validate =>
      intro ctx t r es t' hp _
      cases hp
      exact ⟨.passed, rfl, nofun⟩
    case transmit =>
      intro earlier batch ctx t r es t' hp _
      cases hp with
      | sleep hp =>
        cases hp
        rfl
  obtain ⟨_, htally⟩ := h ⟨1, 2, "value"⟩ slowCount _ hcounts hplugins hsink (by decide)
    { stageTimeoutMs := some 5 } {} {} _ _ rfl fun _ _ => trivial
  cases htally

end DataPipeline
