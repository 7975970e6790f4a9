import DataPipeline.Proofs.Node.Configured
import DataPipeline.Proofs.Node.Settles
import DataPipeline.Proofs.Node.Tallies
import DataPipeline.Proofs.Node.Tenants
import Mathlib.Data.Nat.Cast.Basic

namespace DataPipeline

open Activity

namespace Occurrence

/-- What an occurrence adds to each of the counters. -/
def calls : Occurrence → Nat
  | call _ => 1
  | batch _ | invalid => 0

def failures : Occurrence → Nat
  | call failed => if failed then 1 else 0
  | batch _ | invalid => 0

def validationFailures : Occurrence → Nat
  | invalid => 1
  | batch _ | call _ => 0

def batches : Occurrence → Nat
  | batch _ => 1
  | invalid | call _ => 0

def records : Occurrence → Nat
  | batch records => records
  | invalid | call _ => 0

end Occurrence

namespace StageMetrics

variable (m : StageMetrics) (os : List Occurrence)

theorem calls_add (o : Occurrence) : (m.add o).calls = m.calls + o.calls := by
  cases o <;> rfl

theorem failures_add (o : Occurrence) : (m.add o).failures = m.failures + o.failures := by
  rcases o with _ | _ | failed
  · rfl
  · rfl
  · cases failed <;> rfl

theorem validationFailures_add (o : Occurrence) :
    (m.add o).validationFailures = m.validationFailures + o.validationFailures := by
  cases o <;> rfl

theorem batches_add (o : Occurrence) : (m.add o).batches = m.batches + o.batches := by
  cases o <;> rfl

theorem records_add (o : Occurrence) : (m.add o).records = m.records + o.records := by
  cases o <;> rfl

theorem calls_addAll : (m.addAll os).calls = m.calls + (os.map Occurrence.calls).sum :=
  weight_addAll calls_add m os

theorem failures_addAll :
    (m.addAll os).failures = m.failures + (os.map Occurrence.failures).sum :=
  weight_addAll failures_add m os

theorem validationFailures_addAll : (m.addAll os).validationFailures =
    m.validationFailures + (os.map Occurrence.validationFailures).sum :=
  weight_addAll validationFailures_add m os

theorem batches_addAll : (m.addAll os).batches = m.batches + (os.map Occurrence.batches).sum :=
  weight_addAll batches_add m os

theorem records_addAll : (m.addAll os).records = m.records + (os.map Occurrence.records).sum :=
  weight_addAll records_add m os

end StageMetrics

/-- Counters say of a stage what its results and the batches that its sink took say: how often
it was run, refused, and failed, and how much was taken. -/
structure StageMetrics.Reconciles (m : StageMetrics) (s : Stage) (times : Nat)
    (results : List Outcome) (taken : List Batch) : Prop where
  stage : m.stage = (Node.stage s).descriptor.name
  runs : results.length = times
  calls : m.calls + m.validationFailures = results.length
  validationFailures : m.validationFailures = results.countP fun q => !q.isValidationSuccess
  failures : m.failures = results.countP fun q => q.isValidationSuccess && !q.isExecutionSuccess
  batches : m.batches = taken.length
  records : m.records = (taken.map List.length).sum

theorem StageMetrics.Reconciles.no_failure_iff {m : StageMetrics} {s : Stage} {times : Nat}
    {results : List Outcome} {taken : List Batch} (h : m.Reconciles s times results taken) :
    m.failures + m.validationFailures = 0 ↔ ∀ q ∈ results, q.isSuccess = true := by
  rw [h.failures, h.validationFailures, Nat.add_eq_zero_iff, List.countP_eq_zero,
    List.countP_eq_zero]
  constructor
  · rintro ⟨hfailures, hinvalid⟩ q hq
    have hvalid : q.isValidationSuccess = true := by simpa using hinvalid q hq
    simpa [Outcome.isSuccess, hvalid] using hfailures q hq
  · intro hsuccess
    have hboth : ∀ q ∈ results, q.isValidationSuccess = true ∧ q.isExecutionSuccess = true :=
      fun q hq => Bool.and_eq_true_iff.1 (hsuccess q hq)
    constructor
    · intro q hq
      simp [hboth q hq]
    · intro q hq
      simp [hboth q hq]

section

variable {rs : List (Stage × Outcome)} {parts : List (Multiset Op)} {p : NodePath}
  {name : String}

/-- What was done for each result of a stage tallies with it. -/
abbrev TallyAll (rs : List (Stage × Outcome)) (parts : List (Multiset Op)) : Prop :=
  List.Forall₂ (fun r part => ∃ taken,
    Tallies r.1.path.text (Node.stage r.1).name part taken {r.2.occurrence}) rs parts

/-- All that was counted at a place, and all that was taken there. -/
theorem tally_at (h : TallyAll rs parts)
    (hname : ∀ r ∈ rs, r.1.path = p → (Node.stage r.1).name = name) :
    ∃ taken, Multiset.filterMap (Op.counted? p.text) parts.sum =
        (taken.map (fun batch => Occurrence.batch batch.length) +
          ↑((rs.filter (·.1.path = p)).map (·.2.occurrence))).map (name, ·) ∧
      Multiset.filterMap (Op.offered? (ledger p.text)) parts.sum = taken := by
  induction h with
  | nil => exact ⟨0, rfl, rfl⟩
  | @cons r part rs parts hr h ih =>
    rw [List.forall_mem_cons] at hname
    obtain ⟨taken, htaken⟩ := hr
    obtain ⟨rest, hcounted, hoffered⟩ := ih hname.2
    rw [List.sum_cons, Multiset.filterMap_add, Multiset.filterMap_add, hcounted, hoffered,
      htaken.counted, htaken.offered]
    by_cases hp : r.1.path = p
    · subst hp
      refine ⟨taken + rest, ?_, by rw [if_pos rfl]⟩
      rw [if_pos rfl, List.filter_cons_of_pos (by simp), hname.1 rfl]
      simp only [List.map_cons, ← Multiset.cons_coe, ← Multiset.singleton_add, Multiset.map_add]
      ac_rfl
    · have hne : p.text ≠ r.1.path.text := fun heq => hp (NodePath.text_injective heq).symm
      refine ⟨rest, ?_, by rw [if_neg hne, zero_add]⟩
      rw [if_neg hne, zero_add, List.filter_cons_of_neg (by simpa using hp)]

theorem tally_nowhere {place : String} (h : TallyAll rs parts)
    (hplace : ∀ r ∈ rs, place ≠ r.1.path.text) :
    Multiset.filterMap (Op.counted? place) parts.sum = 0 := by
  induction h with
  | nil => rfl
  | cons hr h ih =>
    rw [List.forall_mem_cons] at hplace
    obtain ⟨taken, htaken⟩ := hr
    rw [List.sum_cons, Multiset.filterMap_add, ih hplace.2, htaken.counted,
      if_neg hplace.1, add_zero]

theorem sum_occurrences {weight : Occurrence → Nat} {P : Outcome → Bool}
    (h : ∀ q : Outcome, weight q.occurrence = if P q then 1 else 0) (qs : List Outcome) :
    (qs.map fun q => weight q.occurrence).sum = qs.countP P := by
  induction qs with
  | nil => rfl
  | cons q qs ih =>
    rw [List.map_cons, List.sum_cons, ih, h, List.countP_cons, Nat.add_comm]

namespace Outcome

variable (q : Outcome)

theorem calls_occurrence : q.occurrence.calls = if q.isValidationSuccess then 1 else 0 := by
  rw [occurrence]
  cases q.isValidationSuccess <;> rfl

theorem validationFailures_occurrence :
    q.occurrence.validationFailures = if !q.isValidationSuccess then 1 else 0 := by
  rw [occurrence]
  cases q.isValidationSuccess <;> rfl

theorem failures_occurrence : q.occurrence.failures =
    if q.isValidationSuccess && !q.isExecutionSuccess then 1 else 0 := by
  rw [occurrence]
  cases q.isValidationSuccess <;> rfl

theorem batches_occurrence : q.occurrence.batches = 0 := by
  rw [occurrence]
  cases q.isValidationSuccess <;> rfl

theorem records_occurrence : q.occurrence.records = 0 := by
  rw [occurrence]
  cases q.isValidationSuccess <;> rfl

end Outcome

/-- Counters reconcile to which the batches that were taken and the results of a stage were
added. -/
theorem reconciles_addAll {s : Stage} {results : List Outcome} {taken : List Batch}
    {os : List Occurrence}
    (h : (os : Multiset Occurrence) = (taken : Multiset Batch).map (fun b => .batch b.length) +
      ↑(results.map (·.occurrence))) :
    (StageMetrics.addAll { stage := (Node.stage s).name } os).Reconciles s
      results.length results taken := by
  have hsum (weight : Occurrence → Nat) : (os.map weight).sum =
      (taken.map fun b => weight (.batch b.length)).sum +
        (results.map fun q => weight q.occurrence).sum := by
    have hmap := congrArg (fun x => (x.map weight).sum) h
    simpa [Function.comp_def] using hmap
  have hcalls : (StageMetrics.addAll { stage := (Node.stage s).name } os).calls =
      results.countP (·.isValidationSuccess) := by
    rw [StageMetrics.calls_addAll, hsum, sum_occurrences Outcome.calls_occurrence]
    simp [Occurrence.calls]
  have hinvalid : (StageMetrics.addAll { stage := (Node.stage s).name } os).validationFailures =
      results.countP fun q => !q.isValidationSuccess := by
    rw [StageMetrics.validationFailures_addAll, hsum,
      sum_occurrences Outcome.validationFailures_occurrence]
    simp [Occurrence.validationFailures]
  constructor
  case stage => exact StageMetrics.stage_addAll
  case runs => rfl
  case calls =>
    rw [hcalls, hinvalid, List.length_eq_countP_add_countP (·.isValidationSuccess)]
    simp
  case validationFailures => exact hinvalid
  case failures =>
    rw [StageMetrics.failures_addAll, hsum, sum_occurrences Outcome.failures_occurrence]
    simp [Occurrence.failures]
  case batches =>
    rw [StageMetrics.batches_addAll, hsum]
    simp only [Outcome.batches_occurrence]
    simp [Occurrence.batches]
  case records =>
    rw [StageMetrics.records_addAll, hsum]
    simp only [Outcome.records_occurrence]
    simp [Occurrence.records]

end

namespace Node

variable {n : Node} {settings : RunSettings} {ctx : RunContext} {o : Outcome}
  {w v : World} {s : Stage}

theorem tallyAll_run (hn : n.Shaped) (hs : ∀ s ∈ n.stages, s.OfPlugins)
    (hrun : (n.executeBy (fun s => s.watched.execute) settings ctx).run w = some (o, v)) :
    ∃ parts, TallyAll (n.results o) parts ∧
      (((n.executeBy (fun s => s.watched.execute) settings ctx).actions w : List Op) :
        Multiset Op) = parts.sum := by
  obtain ⟨parts, hsum, hparts⟩ := parts_executeBy hn (does_of_run hrun)
  refine ⟨parts, ?_, hsum⟩
  have hplugins : ∀ r ∈ n.results o, r.1.OfPlugins :=
    fun r hr => hs r.1 (mem_stages_of_results n o r hr)
  apply ((List.forall₂_and_left _ _).2 ⟨hplugins, hparts⟩).imp
  rintro r part ⟨hr, ctx', hdoes⟩
  exact Stage.tallies_execute hr hdoes

/-- What was counted at the place of a stage, and the ledger of that stage, from the actions
that tally with its results. -/
theorem reconciles_at {actions : List Op} {parts : List (Multiset Op)}
    (htally : TallyAll (n.results o) parts) (hactions : (actions : Multiset Op) = parts.sum)
    (hname : ∀ r ∈ n.results o, r.1.path = s.path → (Node.stage r.1).name = (Node.stage s).name)
    (hpos : n.resultsAt o s.path ≠ []) :
    ∃ m, (actions.filterMap (Op.counted? s.path.text)).foldl recount none = some m ∧
      m.Reconciles s (n.resultsAt o s.path).length (n.resultsAt o s.path)
        (actions.filterMap (Op.offered? (ledger s.path.text))).reverse := by
  obtain ⟨taken, hcounted, hoffered⟩ := tally_at htally hname
  rw [← hactions, Multiset.filterMap_coe] at hcounted hoffered
  generalize hcs : actions.filterMap (Op.counted? s.path.text) = cs at hcounted ⊢
  -- all of it was counted under the one name, so the first entry does not choose the label
  have hnames : (cs.map (·.2)).map ((Node.stage s).name, ·) = cs := by
    rw [List.map_map]
    nth_rewrite 2 [← List.map_id cs]
    apply List.map_congr_left
    intro x hx
    have hmem : x ∈ (cs : Multiset (String × Occurrence)) := hx
    rw [hcounted, Multiset.mem_map] at hmem
    obtain ⟨y, _, rfl⟩ := hmem
    rfl
  have hos : ((cs.map (·.2) : List Occurrence) : Multiset Occurrence) =
      ((actions.filterMap (Op.offered? (ledger s.path.text))).reverse : Multiset Batch).map
        (fun b => .batch b.length) + ↑((n.resultsAt o s.path).map (·.occurrence)) := by
    rw [← Multiset.map_coe, hcounted, Multiset.map_map, Multiset.coe_reverse,
      hoffered, resultsAt, List.map_map]
    exact Multiset.map_id _
  have hne : cs.map (·.2) ≠ [] := by
    intro hnil
    rw [hnil] at hos
    have hcard := congrArg Multiset.card hos
    simp only [Multiset.coe_nil, Multiset.card_zero, Multiset.card_add, Multiset.coe_card,
      List.length_map] at hcard
    exact hpos (List.eq_nil_of_length_eq_zero (by omega))
  have hfold : ((cs.map (·.2)).map ((Node.stage s).name, ·)).foldl recount none = _ :=
    foldl_recount hne
  rw [hnames] at hfold
  exact ⟨_, hfold, reconciles_addAll hos⟩

theorem Reports.mem_runs (h : n.Reports o) (hnodup : (n.stages.map (·.path.text)).Nodup)
    (hmem : s ∈ n.stages) :
    (s, (n.resultsAt o s.path).length) ∈ n.runs := by
  have hpaths : (n.runs.map (·.1.path)).Nodup := by
    rw [← map_fst_runs n, List.map_map] at hnodup
    apply List.Nodup.of_map NodePath.text
    rwa [List.map_map]
  rw [← map_fst_runs n] at hmem
  obtain ⟨r, hr, rfl⟩ := List.mem_map.1 hmem
  rwa [h.length_resultsAt, timesAt_of_mem hpaths hr]

/-- After a watched run that starts with no counters, a stage has counters that reconcile. -/
theorem reconciles_run (hn : n.Shaped) (hnodup : (n.stages.map (·.path.text)).Nodup)
    (hs : ∀ s ∈ n.stages, s.OfPlugins) (hfresh : w.metrics.stages = []) (hreports : n.Reports o)
    (hrun : (n.executeBy (fun s => s.watched.execute) settings ctx).run w = some (o, v))
    (hmem : s ∈ n.stages) :
    ∃ times m taken, (s, times) ∈ n.runs ∧ (s.path.text, m) ∈ v.metrics.stages ∧
      v.offeredAt (ledger s.path.text) = taken ++ w.offeredAt (ledger s.path.text) ∧
      m.Reconciles s times (n.resultsAt o s.path) taken := by
  have hr := hreports.mem_runs hnodup hmem
  have hpos : n.resultsAt o s.path ≠ [] := List.ne_nil_of_length_pos (hn.runs_pos _ hr)
  have hsame :
      ∀ r ∈ n.results o, r.1.path = s.path → (Node.stage r.1).name = (Node.stage s).name := by
    intro r hmem' heq
    rw [List.inj_on_of_nodup_map hnodup (mem_stages_of_results n o r hmem') hmem
      (congrArg NodePath.text heq)]
  obtain ⟨parts, htally, hactions⟩ := tallyAll_run hn hs hrun
  obtain ⟨m, hm, hreconciles⟩ := reconciles_at htally hactions hsame hpos
  refine ⟨_, m, _, hr, ?_, offeredAt_run hrun _, hreconciles⟩
  have hascending : Metrics.Ascending v.metrics.stages := by
    apply ascending_run hrun
    rw [hfresh]
    exact List.Pairwise.nil
  rw [← Metrics.at?_eq_some hascending, at?_run hrun, Metrics.at?, hfresh]
  exact hm

theorem at?_run_elsewhere (hn : n.Shaped) (hs : ∀ s ∈ n.stages, s.OfPlugins)
    (hfresh : w.metrics.stages = [])
    (hrun : (n.executeBy (fun s => s.watched.execute) settings ctx).run w = some (o, v))
    {place : String} (hplace : ∀ s ∈ n.stages, place ≠ s.path.text) :
    v.metrics.at? place = none := by
  obtain ⟨parts, htally, hactions⟩ := tallyAll_run hn hs hrun
  have hnone := tally_nowhere htally fun r hr => hplace r.1 (mem_stages_of_results n o r hr)
  rw [← hactions, Multiset.filterMap_coe, Multiset.coe_eq_zero] at hnone
  rw [at?_run hrun, hnone, Metrics.at?, hfresh]
  rfl

end Node

/-- The counters of a run with a fresh table agree with its outcome. The run ends if there is a
limit or the plugins end. The stages are at places of their own, and the table has counters for
just these places; if the sinks are watched, which changes nothing that plugins can see, then
the counters of each stage say what its results and its ledger say, and it was run as often as
the repeats around it are configured to repeat; and no counter tells of a failure if the run was
a success, and only then. -/
theorem execute_reconciled (registry : Registry)
    (hw : registry.wrappers = Registry.builtin.wrappers) (schema : Schema)
    (context : BuildContext) (n : Node)
    (hn : (buildPipeline registry schema context).result = .ok n)
    (hs : ∀ s ∈ n.stages, s.OfPlugins) (settings : RunSettings) (ctx : RunContext) (w : World)
    (hfresh : w.metrics.stages = []) :
    ((settings.stageTimeoutMs = none → ∀ s ∈ n.stages, s.Settles) →
      ∃ o w', (n.execute settings ctx).run w = some (o, w')) ∧
    ∀ o w', (n.execute settings ctx).run w = some (o, w') →
      (n.stages.map (·.path.text)).Nodup ∧
      (w'.metrics.stages.map (·.1)).Perm (n.stages.map (·.path.text)) ∧
      (∃ v, (n.executeBy (fun s => s.watched.execute) settings ctx).run w = some (o, v) ∧
        w'.Alike v ∧
        ∀ s ∈ n.stages, ∃ times m taken, (s, times) ∈ n.runs ∧
          times = (schema.timesTo s.path.hops).prod ∧ (s.path.text, m) ∈ w'.metrics.stages ∧
          v.offeredAt (ledger s.path.text) = taken ++ w.offeredAt (ledger s.path.text) ∧
          m.Reconciles s times (n.resultsAt o s.path) taken) ∧
      ((w'.metrics.stages.map fun e => e.2.failures + e.2.validationFailures).sum = 0 ↔
        o.isSuccess = true) := by
  have hbuilt := buildPipeline_builtAt hn
  have hshape := hbuilt.shaped hw
  refine ⟨fun hsettles => Node.run_isSome hshape hsettles ctx w, ?_⟩
  intro o w' hrun
  obtain ⟨hreports, hparts⟩ := Node.faithful_of_ends hw hbuilt (ends_of_run hrun)
  obtain ⟨v, hv, halike⟩ := Node.run_watched hshape hs hrun
  have hnodup := hbuilt.nodup_places.2
  have hascending : Metrics.Ascending w'.metrics.stages := by
    apply ascending_run hrun
    rw [hfresh]
    exact List.Pairwise.nil
  have hstage : ∀ s ∈ n.stages, ∃ times m taken, (s, times) ∈ n.runs ∧
      times = (schema.timesTo s.path.hops).prod ∧ (s.path.text, m) ∈ w'.metrics.stages ∧
      v.offeredAt (ledger s.path.text) = taken ++ w.offeredAt (ledger s.path.text) ∧
      m.Reconciles s times (n.resultsAt o s.path) taken := by
    intro s hmem
    rw [halike.metrics]
    obtain ⟨times, m, taken, hr, htold⟩ :=
      Node.reconciles_run hshape hnodup hs hfresh hreports hv hmem
    exact ⟨times, m, taken, hr, times_of_mem_runs hw hn hr, htold⟩
  -- the table began empty, so what stands in it was counted by the run
  have hplace : ∀ e ∈ w'.metrics.stages, ∃ s ∈ n.stages, e.1 = s.path.text := by
    intro e he
    by_contra hno
    push Not at hno
    have hnone := Node.at?_run_elsewhere hshape hs hfresh hv hno
    rw [← halike.metrics, (Metrics.at?_eq_some hascending).2 he] at hnone
    cases hnone
  refine ⟨hnodup, ?_, ⟨v, hv, halike, hstage⟩, ?_⟩
  · rw [List.perm_ext_iff_of_nodup hascending.nodup hnodup]
    intro place
    constructor
    · intro h
      obtain ⟨e, he, rfl⟩ := List.mem_map.1 h
      obtain ⟨s, hmem, heq⟩ := hplace e he
      exact List.mem_map.2 ⟨s, hmem, heq.symm⟩
    · intro h
      obtain ⟨s, hmem, rfl⟩ := List.mem_map.1 h
      obtain ⟨times, m, taken, _, _, hm, _⟩ := hstage s hmem
      exact List.mem_map_of_mem hm
  · rw [hreports.isSuccess_iff hparts, List.sum_eq_zero_iff_forall_eq_nat, List.forall_mem_map]
    constructor
    · intro hzero r hr
      obtain ⟨_, m, _, _, _, hm, _, hreconciles⟩ :=
        hstage r.1 (Node.mem_stages_of_results n o r hr)
      apply hreconciles.no_failure_iff.1 (hzero _ hm)
      exact Node.mem_resultsAt.2 ⟨r.1, rfl, hr⟩
    · rintro hsuccess ⟨place, m'⟩ he
      obtain ⟨s, hmem, rfl⟩ := hplace _ he
      obtain ⟨_, m, _, _, _, hm, _, hreconciles⟩ := hstage s hmem
      rw [← Metrics.at?_eq_some hascending] at he hm
      cases he.symm.trans hm
      rw [hreconciles.no_failure_iff]
      intro q hq
      obtain ⟨s', _, hr⟩ := Node.mem_resultsAt.1 hq
      exact hsuccess _ hr

theorem Datajet.Writes.ofPlugin {file? : Option String} {d : Datajet} (h : d.Writes file?)
    (ctx : RunContext) :
    (d.validate ctx).OfPlugin ∧ ∀ earlier batch, (d.transmit earlier batch ctx).OfPlugin := by
  cases h with
  | stdout label => exact ⟨trivial, fun _ _ => ⟨trivial, fun _ => trivial⟩⟩
  | discard => exact ⟨trivial, fun _ _ => trivial⟩
  | @file path hfile =>
    rw [fileDatajet]
    constructor
    · dsimp only
      split
      · trivial
      · exact ⟨trivial, fun answer => by cases answer <;> trivial⟩
    · intro earlier batch
      refine ⟨trivial, fun opened => ?_⟩
      cases opened with
      | error e => trivial
      | ok _ => exact ⟨trivial, fun written => by cases written <;> trivial⟩

/-- The built-in plugins leave it to the engine to offer and to count. -/
theorem ofPlugins_built {schema : Schema} {context : BuildContext} {n : Node}
    (hl : context.library.entries = [])
    (hb : (buildPipeline Registry.builtin schema context).result = .ok n) :
    ∀ s ∈ n.stages, s.OfPlugins := by
  have hplain := plain_built hl hb
  intro s hs
  obtain ⟨file?, hwrites⟩ := hplain.writes s hs
  constructor
  case generator =>
    intro ctx
    obtain ⟨⟨v, hv⟩, _⟩ := hplain.silent s hs ctx
    rw [hv]
    trivial
  case pull =>
    intro ctx i
    obtain ⟨item, hitem⟩ := (hplain.silent s hs ctx).2 i
    rw [hitem]
    trivial
  case datajet => exact fun ctx => (hwrites.ofPlugin ctx).1
  case transmit => exact fun earlier batch ctx => (hwrites.ofPlugin ctx).2 earlier batch

theorem execute_reconciled_repeatedStage :
    Registry.builtin.wrappers = Registry.builtin.wrappers ∧ ({} : World).metrics.stages = [] ∧
      ∃ n, (buildPipeline Registry.builtin repeatedStage (.mk "" "" {} none none)).result =
        .ok n ∧
        (∀ s ∈ n.stages, s.OfPlugins) ∧ ∃ o w', (n.execute {} {}).run {} = some (o, w') ∧
        (w'.metrics.stages.map fun e => e.2.failures + e.2.validationFailures).sum = 0 ∧
        ∃ m, ("$.child", m) ∈ w'.metrics.stages ∧ m.calls + m.validationFailures = 2 := by
  have hbuild :
      ∃ n, (buildPipeline Registry.builtin repeatedStage (.mk "" "" {} none none)).result =
      .ok n := ⟨_, rfl⟩
  obtain ⟨n, hn⟩ := hbuild
  have hplugins : ∀ s ∈ n.stages, s.OfPlugins := ofPlugins_built rfl hn
  refine ⟨rfl, rfl, n, hn, hplugins, ?_⟩
  cases hn
  refine ⟨_, _, rfl, ?_⟩
  obtain ⟨_, hends⟩ :=
    execute_reconciled Registry.builtin rfl repeatedStage
      (.mk "" "" {} none none) _ rfl hplugins {} {} {} rfl
  obtain ⟨_, _, ⟨v, _, _, hstage⟩, hzero⟩ := hends _ _ rfl
  refine ⟨hzero.2 rfl, ?_⟩
  obtain ⟨_, m, _, _, _, hm, _, hreconciles⟩ := hstage _ List.mem_cons_self
  exact ⟨m, hm, hreconciles.calls⟩

end DataPipeline
