import DataPipeline.Proofs.Node.Logged
import DataPipeline.Proofs.Node.Reconciled
import DataPipeline.Proofs.Run.Begun

namespace DataPipeline

open Activity

namespace Stage

/-- The calls by which an item at a position is handed on. -/
def Delivery.calls (i : Nat) : Delivery → List Call
  | unmade _ => [.pull i]
  | refused batch _ => [.pull i, .transmit batch, .returned batch false]
  | sent batch => [.pull i, .transmit batch, .returned batch true]

variable {s : Stage} {name : String} {ctx : RunContext} {n i k : Nat} {w : World} {d : Delivery}
  {ds : List Delivery}

theorem annotates_handOnFrom (hs : s.OfPlugins) (n i : Nat) :
    Annotates Op.IsTake (s.handOnFrom name ctx n i) (s.logged.handOnFrom name ctx n i) := by
  induction n generalizing i with
  | zero => exact .done []
  | succ n ih =>
    apply (annotates_handOn hs i).bind
    intro d
    exact (ih (i + 1)).bind fun ds => .done _

theorem extent_logged (hs : s.OfPlugins) :
    s.logged.extent name ctx w = s.extent name ctx w := by
  have hdelivery (k : Nat) :
      s.delivery? name ctx 0 k w = s.logged.delivery? name ctx 0 k w := by
    apply ((annotates_handOnFrom hs k 0).run (World.Alike.refl w)).bind_eq
    intro _ w₁ v₁ halike
    exact ((annotates_handOn hs (0 + k)).run halike).map_fst
  rw [extent, extent, extentFrom, extentFrom]
  simp only [← hdelivery]
  rfl

/-- What is counted when an item was handed on. -/
def Delivery.counts (name : String) (d : Delivery) : List (String × Occurrence) :=
  d.sent?.toList.map fun batch => (name, .batch batch.length)

/-- What a log has of what was done, and what was counted of it; nothing was counted at other
places. -/
structure Records (s : Stage) (es : List Event) (calls : List Call)
    (counts : List (String × Occurrence)) : Prop where
  log_eq : log s.path.text es = calls
  counted_eq : ∀ place, counted place es = if s.path.text = place then counts else []

variable {es es' : List Event} {calls calls' : List Call}
  {counts counts' : List (String × Occurrence)} {t t' : Nat}

theorem Records.append (h : s.Records es calls counts) (h' : s.Records es' calls' counts') :
    s.Records (es ++ es') (calls ++ calls') (counts ++ counts') where
  log_eq := by rw [log_append, h.log_eq, h'.log_eq]
  counted_eq place := by
    rw [counted_append, h.counted_eq, h'.counted_eq]
    split
    · rfl
    · rfl

theorem records_plugins (h : ∀ e ∈ es, e.op.OfPlugin) : s.Records es [] [] where
  log_eq := log_plugins h
  counted_eq place := by rw [counted_plugins h, ite_self]

theorem Records.entry {c : Call} {answer : List Batch} (h : s.Records es calls counts) :
    s.Records (⟨t, .offer (ledger s.path.text) c.entry, answer⟩ :: es) (c :: calls) counts where
  log_eq := by rw [log_entry, h.log_eq]
  counted_eq place := by rw [counted_entry, h.counted_eq]

theorem Records.offer {batch : Batch} {answer : List Batch} (h : s.Records es calls counts) :
    s.Records (⟨t, .offer s.path.text batch, answer⟩ :: es) calls counts where
  log_eq := by
    rw [log, List.filterMap_cons_none (call?_offer s)]
    exact h.log_eq
  counted_eq place := by
    rw [counted, List.filterMap_cons_none rfl]
    exact h.counted_eq place

theorem records_count (o : Occurrence) :
    s.Records [⟨t, .count s.path.text name o, ()⟩] [] [(name, o)] where
  log_eq := rfl
  counted_eq place := by
    by_cases hplace : s.path.text = place
    · simp [counted, Op.counted?, hplace]
    · simp [counted, Op.counted?, hplace]

theorem records_nil : s.Records [] [] [] where
  log_eq := rfl
  counted_eq _ := (ite_self []).symm

/-- What is done while the item at a position is handed on with a log, whether or not the
plugins come to their end. -/
inductive HandsOn (s : Stage) (name : String) (i : Nat) :
    Option Delivery → List Event → Prop where
  | stalledPull {es : List Event} {t answer} (hpull : ∀ e ∈ es, e.op.OfPlugin) :
      HandsOn s name i none (⟨t, .offer (ledger s.path.text) (Call.pull i).entry, answer⟩ :: es)
  | unmade {es : List Event} {t answer} (c : Chain) (hpull : ∀ e ∈ es, e.op.OfPlugin) :
      HandsOn s name i (some (.unmade c))
        (⟨t, .offer (ledger s.path.text) (Call.pull i).entry, answer⟩ :: es)
  | stalledTransmit {es es' : List Event} {t t' answer earlier answer'} (batch : Batch)
      (hpull : ∀ e ∈ es, e.op.OfPlugin) (htransmit : ∀ e ∈ es', e.op.OfPlugin) :
      HandsOn s name i none
        (⟨t, .offer (ledger s.path.text) (Call.pull i).entry, answer⟩ :: (es ++
        ⟨t', .offer s.path.text batch, earlier⟩ ::
        ⟨t', .offer (ledger s.path.text) (Call.transmit batch).entry, answer'⟩ :: es'))
  | refused {es es' : List Event} {t t' t'' answer earlier answer' answer''}
      (batch : Batch) (c : Chain)
      (hpull : ∀ e ∈ es, e.op.OfPlugin) (htransmit : ∀ e ∈ es', e.op.OfPlugin) :
      HandsOn s name i (some (.refused batch c))
        (⟨t, .offer (ledger s.path.text) (Call.pull i).entry, answer⟩ :: (es ++
          ⟨t', .offer s.path.text batch, earlier⟩ ::
          ⟨t', .offer (ledger s.path.text) (Call.transmit batch).entry, answer'⟩ :: (es' ++
            [⟨t'', .offer (ledger s.path.text) (Call.returned batch false).entry, answer''⟩])))
  | sent {es es' : List Event} {t t' t'' answer earlier answer' answer''} (batch : Batch)
      (hpull : ∀ e ∈ es, e.op.OfPlugin) (htransmit : ∀ e ∈ es', e.op.OfPlugin) :
      HandsOn s name i (some (.sent batch))
        (⟨t, .offer (ledger s.path.text) (Call.pull i).entry, answer⟩ :: (es ++
          ⟨t', .offer s.path.text batch, earlier⟩ ::
          ⟨t', .offer (ledger s.path.text) (Call.transmit batch).entry, answer'⟩ :: (es' ++
            [⟨t'', .offer (ledger s.path.text) (Call.returned batch true).entry, answer''⟩,
              ⟨t'', .count s.path.text name (.batch batch.length), ()⟩])))

theorem handsOn_of_passes (hs : s.OfPlugins) {d? : Option Delivery}
    (h : (s.logged.handOn name ctx i).Passes t d? es t') : s.HandsOn name i d? es := by
  cases h with
  | act answer h =>
  obtain ⟨item, es₁, t₁, es₂, hitem, hrest, rfl⟩ | ⟨rfl, hstall⟩ := passes_bind h
  · have hpull := (hs.pull ctx i).only.passes hitem
    cases item with
    | error c =>
      cases hrest
      rw [List.append_nil]
      exact .unmade c hpull
    | ok batch =>
      cases hrest with
      | act earlier hrest =>
      cases hrest with
      | act answer hrest =>
      have hrest : (((s.datajet.transmit earlier batch ctx).bind _).bind _).Passes _ _ _ _ :=
        hrest
      rw [bind_bind] at hrest
      obtain ⟨result, es₃, t₃, es₄, hresult, hreturned, rfl⟩ | ⟨rfl, hstall⟩ :=
        passes_bind hrest
      · have htransmit := (hs.transmit earlier batch ctx).only.passes hresult
        cases hreturned with
        | act answer hreturned =>
        cases result with
        | error c =>
          cases hreturned
          exact .refused batch c hpull htransmit
        | ok _ =>
          cases hreturned with
          | act _ hreturned =>
          cases hreturned
          exact .sent batch hpull htransmit
      · exact .stalledTransmit batch hpull ((hs.transmit earlier batch ctx).only.passes hstall)
  · exact .stalledPull ((hs.pull ctx i).only.passes hstall)

theorem handsOn_of_begins (hs : s.OfPlugins) (h : (s.logged.handOn name ctx i).Begins t es) :
    s.HandsOn name i none es := by
  cases h with
  | act answer h =>
  obtain hstopped | ⟨item, es₁, t₁, es₂, hitem, hrest, rfl⟩ := begins_bind h
  · exact .stalledPull (hstopped.only (hs.pull ctx i).only)
  · have hpull := (hs.pull ctx i).only.passes hitem
    cases item with
    | error c => cases hrest
    | ok batch =>
      cases hrest with
      | act earlier hrest =>
      cases hrest with
      | act answer hrest =>
      have hrest : (((s.datajet.transmit earlier batch ctx).bind _).bind _).Begins _ _ := hrest
      rw [bind_bind] at hrest
      obtain hstopped | ⟨result, es₃, t₃, es₄, hresult, hreturned, rfl⟩ := begins_bind hrest
      · exact .stalledTransmit batch hpull (hstopped.only (hs.transmit earlier batch ctx).only)
      · -- nothing is waited for between the return and its count
        cases hreturned with
        | act answer hreturned =>
        cases result with
        | error c => cases hreturned
        | ok _ =>
          cases hreturned with
          | act _ hreturned => cases hreturned

theorem HandsOn.records (h : s.HandsOn name i (some d) es) :
    s.Records es (d.calls i) (d.counts name) := by
  cases h with
  | unmade c hpull => exact (records_plugins hpull).entry
  | refused batch c hpull htransmit =>
    exact ((records_plugins hpull).append
      ((records_plugins htransmit).append records_nil.entry).entry.offer).entry
  | sent batch hpull htransmit =>
    exact ((records_plugins hpull).append
      ((records_plugins htransmit).append
        (records_count (.batch batch.length)).entry).entry.offer).entry

/-- The calls by which items from a position on are handed on. -/
def callsFrom (i : Nat) (ds : List Delivery) : List Call :=
  (ds.zipIdx i).flatMap fun x => x.1.calls x.2

theorem records_handOnFrom (hs : s.OfPlugins)
    (h : (s.logged.handOnFrom name ctx n i).Passes t (some ds) es t') :
    s.Records es (callsFrom i ds) (ds.flatMap (·.counts name)) := by
  induction n generalizing i t ds es with
  | zero =>
    cases h
    exact records_nil
  | succ n ih =>
    obtain ⟨d, es₁, t₁, es₂, hd, hrest, rfl⟩ | ⟨hnone, _⟩ := passes_bind h
    · obtain ⟨rest, es₃, t₂, es₄, hfollowing, hdone, rfl⟩ | ⟨hnone, _⟩ := passes_bind hrest
      · cases hdone
        rw [List.append_nil]
        exact (handsOn_of_passes hs hd).records.append (ih hfollowing)
      · cases hnone
    · cases hnone

/-- A drain has come to its end in a world: it has handed on the items of its extent and asked
for no others, and it has reported and counted what came of them. -/
structure HasDrained (s : Stage) (name : String) (ctx : RunContext) (w : World)
    (errors : List String) (w' : World) (ds : List Delivery) : Prop where
  length_eq : ds.length = s.extent name ctx w
  deliveries : ∀ k < s.extent name ctx w, s.delivery? name ctx 0 k w = ds[k]?
  calls : log s.path.text ((s.logged.drain name ctx).history w) = callsFrom 0 ds
  unlogged :
    unmarked Op.IsTake ((s.logged.drain name ctx).history w) = (s.drain name ctx).history w
  errors_eq : errors = s.report 0 ds
  batches : w'.tally s.path.text (·.batches) =
    w.tally s.path.text (·.batches) + (ds.filterMap Delivery.sent?).length
  records : w'.tally s.path.text (·.records) =
    w.tally s.path.text (·.records) + ((ds.filterMap Delivery.sent?).map List.length).sum
  others : ∀ counter ∈ [(·.calls), (·.failures), (·.validationFailures)],
    w'.tally s.path.text counter = w.tally s.path.text counter
  elsewhere : ∀ place, place ≠ s.path.text → w'.metrics.at? place = w.metrics.at? place

theorem sum_counts {weight : Occurrence → Nat} :
    ((ds.flatMap (·.counts name)).map fun x => weight x.2).sum =
    ((ds.filterMap Delivery.sent?).map fun batch => weight (.batch batch.length)).sum := by
  induction ds with
  | nil => rfl
  | cons d ds ih =>
    rw [List.flatMap_cons, List.map_append, List.sum_append, ih]
    cases d with
    | unmade c => exact Nat.zero_add _
    | refused batch c => exact Nat.zero_add _
    | sent batch => rfl

/-- A drain that ends has handed on the items of its extent. -/
theorem hasDrained_of_run (hs : s.OfPlugins) {errors : List String} {w' : World}
    (h : (s.drain name ctx).run w = some (errors, w')) :
    ∃ ds, s.HasDrained name ctx w errors w' ds := by
  rw [run_drain] at h
  obtain ⟨⟨ds, last⟩, hds, heq⟩ := Option.map_eq_some_iff.1 h
  cases heq
  have hannotates : Annotates Op.IsTake (s.handOnFrom name ctx (s.extent name ctx w) 0)
    (s.logged.handOnFrom name ctx (s.extent name ctx w) 0) := annotates_handOnFrom hs _ 0
  obtain ⟨v, hlogged, _⟩ := hannotates.ends (World.Alike.refl w) hds
  have hrecords := records_handOnFrom hs (passes_of_run hlogged)
  have htally {counter : StageMetrics → Nat} {weight : Occurrence → Nat}
      (hadd : ∀ m o, counter (m.add o) = counter m + weight o)
      (hstart : ∀ name, counter { stage := name } = 0) :
      last.tally s.path.text counter = w.tally s.path.text counter +
        ((ds.filterMap Delivery.sent?).map fun batch => weight (.batch batch.length)).sum := by
    rw [hannotates.tally_run hds hadd hstart, hrecords.counted_eq, if_pos rfl, sum_counts]
  have hnothing : ((ds.filterMap Delivery.sent?).map fun _ => 0).sum = 0 := by simp
  refine ⟨ds, ?_⟩
  constructor
  case length_eq => exact length_of_run_handOnFrom hds
  case deliveries => exact fun k hk => delivery?_of_run hds hk
  case calls =>
    rw [history_drain, extent_logged hs]
    exact hrecords.log_eq
  case unlogged => exact (annotates_drain hs).history (World.Alike.refl w)
  case errors_eq => rfl
  case batches =>
    have hone : (ds.filterMap Delivery.sent?).length =
      ((ds.filterMap Delivery.sent?).map fun _ => 1).sum := by simp
    rw [hone]
    exact htally StageMetrics.batches_add fun _ => rfl
  case records => exact htally StageMetrics.records_add fun _ => rfl
  case others =>
    intro counter hcounter
    simp only [List.mem_cons, List.not_mem_nil, or_false] at hcounter
    rcases hcounter with rfl | rfl | rfl
    · exact (htally StageMetrics.calls_add fun _ => rfl).trans (congrArg _ hnothing)
    · exact (htally StageMetrics.failures_add fun _ => rfl).trans (congrArg _ hnothing)
    · exact (htally StageMetrics.validationFailures_add fun _ => rfl).trans
        (congrArg _ hnothing)
  case elsewhere =>
    intro place hplace
    rw [hannotates.at?_run hds, hrecords.counted_eq, if_neg (Ne.symm hplace)]
    rfl

/-- A drain does no more than to hand on the items that the stage is allowed, or those up to the
first that fails if the stage is not told to go on. If the stream and the sink end, so does the
drain, and whenever it has ended just these items have been handed on, reported and counted. -/
theorem drain_extent (s : Stage) (hs : s.OfPlugins) (name : String)
    (ctx : RunContext) (w : World) :
    (s.drain name ctx).history w = (s.handOnFrom name ctx (s.extent name ctx w) 0).history w ∧
    ((∀ i, ((s.generator.batches ctx).pull i).Settles) →
      (∀ earlier batch, (s.datajet.transmit earlier batch ctx).Settles) →
      ∃ errors w', (s.drain name ctx).run w = some (errors, w')) ∧
    ∀ errors w', (s.drain name ctx).run w = some (errors, w') →
      ∃ ds, s.HasDrained name ctx w errors w' ds := by
  apply And.intro (history_drain s name ctx w)
  constructor
  · intro hpull htransmit
    obtain ⟨ds, w', hds, _⟩ :=
      (settles_handOnFrom hpull htransmit (s.extent name ctx w) 0).run w
    rw [run_drain, hds]
    exact ⟨_, _, rfl⟩
  · intro errors w' h
    exact hasDrained_of_run hs h

/-- A stage whose second item cannot be made, and whose sink refuses the last two as there is
nothing in them. -/
def mixedStage (settings : StageSettings) : Stage where
  path := .root
  generator :=
    { name := "script"
      batches := fun _ => ⟨4, fun i =>
        .done (if i = 1 then .error (.of "boom") else .ok (List.replicate (2 - i) .null))⟩ }
  datajet :=
    { name := "sink"
      transmit := fun _ batch _ =>
        .done (if batch.isEmpty then .error (.of "nothing") else .ok ()) }
  settings

/-- The stage hands on the whole of its stream, or no more than its settings allow. -/
theorem drain_extent_mixedStage :
    (∀ settings, (mixedStage settings).OfPlugins ∧
      (∀ i, (((mixedStage settings).generator.batches {}).pull i).Settles) ∧
      ∀ earlier batch, ((mixedStage settings).datajet.transmit earlier batch {}).Settles) ∧
    (∃ errors w' ds, ((mixedStage ⟨none, true⟩).drain "mixed" {}).run {} = some (errors, w') ∧
      (mixedStage ⟨none, true⟩).HasDrained "mixed" {} {} errors w' ds ∧
      (mixedStage ⟨none, true⟩).extent "mixed" {} {} = 4 ∧
      errors = ["script failed to produce batch 2: boom",
        "sink failed to transmit batch 3: nothing",
        "sink failed to transmit batch 4: nothing"]) ∧
    (∃ errors w' ds, ((mixedStage ⟨some 3, true⟩).drain "mixed" {}).run {} = some (errors, w') ∧
      (mixedStage ⟨some 3, true⟩).HasDrained "mixed" {} {} errors w' ds ∧
      (mixedStage ⟨some 3, true⟩).extent "mixed" {} {} = 3 ∧
      errors = ["script failed to produce batch 2: boom",
        "sink failed to transmit batch 3: nothing"]) ∧
    ∃ errors w' ds, ((mixedStage ⟨none, false⟩).drain "mixed" {}).run {} = some (errors, w') ∧
      (mixedStage ⟨none, false⟩).HasDrained "mixed" {} {} errors w' ds ∧
      (mixedStage ⟨none, false⟩).extent "mixed" {} {} = 2 ∧
      errors = ["script failed to produce batch 2: boom"] := by
  have hplugins (settings : StageSettings) : (mixedStage settings).OfPlugins :=
    ⟨fun _ => trivial, fun _ _ => trivial, fun _ => trivial, fun _ _ _ => trivial⟩
  have hdrained (settings : StageSettings) {errors : List String} {w' : World}
      (hrun : ((mixedStage settings).drain "mixed" {}).run {} = some (errors, w')) :
      ∃ ds, (mixedStage settings).HasDrained "mixed" {} {} errors w' ds :=
    (drain_extent (mixedStage settings) (hplugins settings) "mixed" {} {}).2.2 errors w' hrun
  refine ⟨fun settings => ⟨hplugins settings, fun _ => trivial, fun _ _ => trivial⟩, ?_, ?_, ?_⟩
  · obtain ⟨ds, hds⟩ := hdrained ⟨none, true⟩ rfl
    exact ⟨_, _, ds, rfl, hds, rfl, rfl⟩
  · obtain ⟨ds, hds⟩ := hdrained ⟨some 3, true⟩ rfl
    exact ⟨_, _, ds, rfl, hds, rfl, rfl⟩
  · obtain ⟨ds, hds⟩ := hdrained ⟨none, false⟩ rfl
    exact ⟨_, _, ds, rfl, hds, rfl, rfl⟩

end Stage

end DataPipeline
