import DataPipeline.Proofs.Node.Extent
import DataPipeline.Proofs.Node.Gated

namespace DataPipeline

open Activity

/-- The return of a sink, by which it has taken a batch or refused it. -/
structure Return where
  time : Nat
  batch : Batch
  accepted : Bool

def Event.return? (place : String) (e : Event) : Option Return :=
  match e.call? place with
  | some (.returned batch accepted) => some ⟨e.time, batch, accepted⟩
  | _ => none

/-- The returns of a sink that are written down at a place. -/
def returns (place : String) (es : List Event) : List Return :=
  es.filterMap (Event.return? place)

/-- What is counted at a place, and when. -/
def Event.counted? (place : String) (e : Event) : Option (Nat × String × Occurrence) :=
  (e.op.counted? place).map (e.time, ·)

/-- What is to be counted when a sink returns. -/
def Event.due? (place name : String) (e : Event) : Option (Nat × String × Occurrence) :=
  (e.return? place).bind fun r =>
    if r.accepted then some (r.time, name, .batch r.batch.length) else none

/-- What is counted at a place is that its sink has taken a batch, each time when it returns. -/
def Prompt (place name : String) (es : List Event) : Prop :=
  es.filterMap (Event.counted? place) = es.filterMap (Event.due? place name)

section

variable {place name : String} {es es' : List Event} {e : Event} {deadline : Nat}

theorem Prompt.append (h : Prompt place name es) (h' : Prompt place name es') :
    Prompt place name (es ++ es') := by
  rw [Prompt, List.filterMap_append, List.filterMap_append, h, h']

theorem Prompt.cons (hcounted : e.counted? place = none) (hdue : e.due? place name = none)
    (h : Prompt place name es) : Prompt place name (e :: es) := by
  rw [Prompt, List.filterMap_cons_none hcounted, List.filterMap_cons_none hdue, h]

theorem prompt_plugins (h : ∀ e ∈ es, e.op.OfPlugin) : Prompt place name es := by
  induction es with
  | nil => rfl
  | cons e es ih =>
    obtain ⟨hop, hes⟩ := List.forall_mem_cons.1 h
    apply (ih hes).cons
    · rw [Event.counted?, hop.counted?]
      rfl
    · rw [Event.due?, Event.return?, Event.call?, hop.offered?]
      rfl

theorem due?_entry {c : Call} {t : Nat} {answer : List Batch} :
    Event.due? place name ⟨t, .offer (ledger place) c.entry, answer⟩ =
      match c with
      | .returned batch true => some (t, name, .batch batch.length)
      | _ => none := by
  rw [Event.due?, Event.return?, call?_entry]
  cases c with
  | askGenerator | askDatajet | pull | transmit => rfl
  | returned batch accepted => cases accepted <;> rfl

theorem Prompt.call {c : Call} {t : Nat} {answer : List Batch} (h : Prompt place name es)
    (hc : ∀ batch, c ≠ .returned batch true) :
    Prompt place name (⟨t, .offer (ledger place) c.entry, answer⟩ :: es) := by
  apply h.cons rfl
  rw [due?_entry]
  split
  next batch => exact absurd rfl (hc batch)
  · rfl

theorem prompt_taken {batch : Batch} {t : Nat} {answer : List Batch} : Prompt place name
    [⟨t, .offer (ledger place) (Call.returned batch true).entry, answer⟩,
      ⟨t, .count place name (.batch batch.length), ()⟩] := by
  have hdue : [Event.mk t (.offer (ledger place) (Call.returned batch true).entry) answer,
      ⟨t, .count place name (.batch batch.length), ()⟩].filterMap (Event.due? place name) =
      [(t, name, .batch batch.length)] :=
    List.filterMap_cons_some due?_entry
  have hcounted : Event.counted? place ⟨t, .count place name (.batch batch.length), ()⟩ =
      some (t, name, .batch batch.length) := by
    rw [Event.counted?, Op.counted?, if_pos rfl]
    rfl
  rw [Prompt, hdue, List.filterMap_cons_none rfl, List.filterMap_cons_some hcounted]
  rfl

theorem Prompt.offer {s : Stage} {batch : Batch} {t : Nat} {answer : List Batch}
    (h : Prompt s.path.text name es) :
    Prompt s.path.text name (⟨t, .offer s.path.text batch, answer⟩ :: es) := by
  apply h.cons rfl
  rw [Event.due?, Event.return?, s.call?_offer]
  rfl

theorem time_return? {r : Return} (h : e.return? place = some r) : r.time = e.time := by
  unfold Event.return? at h
  split at h
  · cases h
    rfl
  · cases h

theorem returns_filter_time (deadline : Nat) : (returns place es).filter (·.time < deadline) =
    returns place (es.filter (·.time < deadline)) := by
  rw [returns, returns, List.filterMap_filter, List.filter_filterMap]
  congr 1
  funext e
  cases hr : e.return? place with
  | none => simp
  | some r => simp [time_return? hr, Option.filter]

/-- The batches that a sink has taken. -/
def taken (place : String) (es : List Event) : List Batch :=
  ((returns place es).filter (·.accepted)).map (·.batch)

theorem Prompt.counted_eq (h : Prompt place name es) :
    counted place es = (taken place es).map fun batch => (name, .batch batch.length) := by
  have hcounted : counted place es = (es.filterMap (Event.counted? place)).map (·.2) := by
    rw [List.map_filterMap]
    apply List.filterMap_congr
    intro e _
    rw [Event.counted?, Option.map_map]
    exact Option.map_id'.symm
  have hdue : es.filterMap (Event.due? place name) =
      ((returns place es).filter (·.accepted)).map fun r =>
        (r.time, name, .batch r.batch.length) := by
    rw [← List.filterMap_eq_map', List.filterMap_filter, returns, List.filterMap_filterMap]
    rfl
  rw [hcounted, h, hdue, taken, List.map_map, List.map_map]
  rfl

end

namespace Stage

variable {s : Stage} {name : String} {ctx : RunContext}

theorem HandsOn.prompt {i : Nat} {d? : Option Delivery} {es : List Event}
    (h : s.HandsOn name i d? es) :
    Prompt s.path.text name es := by
  cases h with
  | stalledPull hpull => exact (prompt_plugins hpull).call (by nofun)
  | unmade c hpull => exact (prompt_plugins hpull).call (by nofun)
  | stalledTransmit batch hpull htransmit =>
    apply Prompt.call _ (by nofun)
    apply (prompt_plugins hpull).append
    apply Prompt.offer
    exact (prompt_plugins htransmit).call (by nofun)
  | refused batch c hpull htransmit =>
    apply Prompt.call _ (by nofun)
    apply (prompt_plugins hpull).append
    apply Prompt.offer
    apply Prompt.call _ (by nofun)
    apply (prompt_plugins htransmit).append
    exact Prompt.call rfl (by nofun)
  | sent batch hpull htransmit =>
    apply Prompt.call _ (by nofun)
    apply (prompt_plugins hpull).append
    apply Prompt.offer
    apply Prompt.call _ (by nofun)
    exact (prompt_plugins htransmit).append prompt_taken

theorem prompt_drainFrom (hs : s.OfPlugins) {n i t : Nat} {es : List Event}
    (h : (s.logged.drainFrom name ctx (s.logged.generator.batches ctx) n i).Begins t es) :
    Prompt s.path.text name es := by
  induction n generalizing i t es with
  | zero => cases h
  | succ n ih =>
    rw [drainFrom_handOn] at h
    obtain hfirst | ⟨d, es₁, t₁, es₂, hfirst, hrest, rfl⟩ := begins_bind h
    · exact (handsOn_of_begins hs hfirst).prompt
    · have hprompt := (handsOn_of_passes hs hfirst).prompt
      split at hrest
      · cases hrest
      · obtain hmore | ⟨_, _, _, _, _, hdone, _⟩ := begins_bind hrest
        · exact hprompt.append (ih hmore)
        · cases hdone

theorem at?_run_plugin {α : Type} {p : Activity α} {a : α} {w w' : World}
    (hp : p.Only Op.OfPlugin) (h : p.run w = some (a, w')) (place : String) :
    w'.metrics.at? place = w.metrics.at? place := by
  rw [at?_run h, ← counted_history, counted_plugins (hp.passes (passes_of_run h))]
  rfl

/-- How a stage ends whose validators have not failed. -/
theorem run_execute_passed (settings : RunSettings) {first? second? : Option Verdict}
    {errors? : Option (List String)} {w w₁ start w₂ : World}
    (hfirst : ((s.generator.validate ctx).within settings.stageTimeoutMs).run w =
      some (first?, w₁))
    (hsecond : ((s.datajet.validate ctx).within settings.stageTimeoutMs).run w₁ =
      some (second?, start))
    (hpassed : (settle settings.stageTimeoutMs first?).isFailed = false)
    (hpassed' : (settle settings.stageTimeoutMs second?).isFailed = false)
    (hdrain : ((s.drain (Node.stage s).name ctx).within settings.stageTimeoutMs).run start =
      some (errors?, w₂)) :
    (s.execute settings ctx).run w =
      some ((errors?.getD [cutMessage settings]).foldl Outcome.fail
        (s.judgement (settle settings.stageTimeoutMs first?)
          (settle settings.stageTimeoutMs second?)),
      (w₂.perform (.count s.path.text (Node.stage s).name
        (.call !(errors?.getD [cutMessage settings]).isEmpty))).2) := by
  rw [execute_eq_executeIn]
  change (((s.generator.validate ctx).within _).bind fun first =>
    ((s.datajet.validate ctx).within _).bind fun second => _).run w = _
  rw [run_bind, hfirst, Option.bind_some, run_bind, hsecond, Option.bind_some]
  change (s.proceed _ settings ctx (s.verdict settings first? second?)).run start = _
  have hvalid : (s.judgement (settle settings.stageTimeoutMs first?)
      (settle settings.stageTimeoutMs second?)).isValidationSuccess = true := by
    simp [judgement, hpassed, hpassed']
  rw [verdict_eq, proceed, hvalid]
  change (((s.drain (Node.stage s).name ctx).within _).bind _).run start = _
  rw [run_bind, hdrain]
  rfl

/-- Both validators of a stage have settled within a limit, and neither has failed. -/
def Admitted (s : Stage) (limit : Nat) (ctx : RunContext) (w start : World) : Prop :=
  ∃ first w₁ second, ((s.generator.validate ctx).cutAfter limit).run w = some (some first, w₁) ∧
    first.isFailed = false ∧
    ((s.datajet.validate ctx).cutAfter limit).run w₁ = some (some second, start) ∧
    second.isFailed = false

/-- What a stage with a log does while it is drained without a limit. -/
def drainLog (s : Stage) (ctx : RunContext) (start : World) : List Event :=
  (s.logged.drain (Node.stage s).name ctx).history start

/-- What a stage with a log does while it is drained until it is cut off. -/
def cutLog (s : Stage) (limit : Nat) (ctx : RunContext) (start : World) : List Event :=
  ((s.logged.drain (Node.stage s).name ctx).cutAfter limit).history start

/-- A stage was cut off while it was drained: its sink has returned as it would have without a
limit, before then always, and at that very time unless it had to wait; each of the batches that
it took was counted, and it is reported that the time ran out. -/
structure CutOff (s : Stage) (limit : Nat) (ctx : RunContext) (w start w' : World)
    (o : Outcome) : Prop where
  cut : ∃ w₂, ((s.drain (Node.stage s).name ctx).cutAfter limit).run start = some (none, w₂) ∧
    w₂.now = start.now + limit
  now_eq : w'.now = start.now + limit
  isValidationSuccess : o.isValidationSuccess = true
  isExecutionSuccess : o.isExecutionSuccess = false
  errors_eq : o.errors = ["Stage timed out after " ++ toString limit ++ " ms"]
  returns_isPrefix :
    returns s.path.text (s.cutLog limit ctx start) <+:
      returns s.path.text (s.drainLog ctx start)
  returns_before :
    (returns s.path.text (s.cutLog limit ctx start)).filter (·.time < start.now + limit) =
    (returns s.path.text (s.drainLog ctx start)).filter (·.time < start.now + limit)
  time_le_of_mem :
    ∀ r ∈ returns s.path.text (s.cutLog limit ctx start), r.time ≤ start.now + limit
  unlogged_cut : unmarked Op.IsTake (s.cutLog limit ctx start) =
    ((s.drain (Node.stage s).name ctx).cutAfter limit).history start
  unlogged_drain :
    unmarked Op.IsTake (s.drainLog ctx start) = (s.drain (Node.stage s).name ctx).history start
  batches : w'.tally s.path.text (·.batches) =
    w.tally s.path.text (·.batches) + (taken s.path.text (s.cutLog limit ctx start)).length
  records : w'.tally s.path.text (·.records) =
    w.tally s.path.text (·.records) +
      ((taken s.path.text (s.cutLog limit ctx start)).map List.length).sum
  calls : w'.tally s.path.text (·.calls) = w.tally s.path.text (·.calls) + 1
  failures : w'.tally s.path.text (·.failures) = w.tally s.path.text (·.failures) + 1
  validationFailures :
    w'.tally s.path.text (·.validationFailures) = w.tally s.path.text (·.validationFailures)

/-- What a stage that was cut off while it was drained has added to a counter of its own: each
batch that its sink has taken, and its one failed call. -/
theorem tally_cut (hs : s.OfPlugins) {counter : StageMetrics → Nat} {weight : Occurrence → Nat}
    (hadd : ∀ m o, counter (m.add o) = counter m + weight o)
    (hstart : ∀ name, counter { stage := name } = 0) {limit : Nat} {start w₂ : World}
    (h : ((s.drain (Node.stage s).name ctx).cutAfter limit).run start = some (none, w₂)) :
    (w₂.perform (.count s.path.text (Node.stage s).name (.call true))).2.tally
      s.path.text counter =
      start.tally s.path.text counter +
        ((taken s.path.text (s.cutLog limit ctx start)).map fun batch =>
          weight (.batch batch.length)).sum +
        weight (.call true) := by
  have hannotates : Annotates Op.IsTake ((s.drain (Node.stage s).name ctx).cutAfter limit)
    ((s.logged.drain (Node.stage s).name ctx).cutAfter limit) :=
      (annotates_drain hs).cutAfter limit
  -- the cut falls where the drain waits, so it does not part a return from its count
  have hprompt : Prompt s.path.text (Node.stage s).name (s.cutLog limit ctx start) := by
    obtain ⟨v, hlogged, _⟩ := hannotates.ends (World.Alike.refl start) h
    rcases passes_cutAfter (passes_of_run hlogged) with ⟨_, hnone, _⟩ | ⟨_, hbegins⟩
    · cases hnone
    · exact prompt_drainFrom hs hbegins
  have hdrain := hannotates.tally_run h hadd hstart s.path.text
  rw [← cutLog, hprompt.counted_eq, List.map_map] at hdrain
  rw [World.tally_count hadd hstart, hdrain]
  rfl

/-- A stage whose validators settle in time without a failure, and whose drain takes longer than
its limit, is cut off. -/
theorem execute_cutOff (s : Stage) (hs : s.OfPlugins) (limit : Nat) (ctx : RunContext)
    (w start : World) (hadmitted : s.Admitted limit ctx w start)
    (hlong : ∀ errors w', (s.drain (Node.stage s).name ctx).run start = some (errors, w') →
      start.now + limit < w'.now) :
    ∃ o w', (s.execute { stageTimeoutMs := some limit } ctx).run w = some (o, w') ∧
      s.CutOff limit ctx w start w' o := by
  obtain ⟨first, w₁, second, hfirst, hpassed, hsecond, hpassed'⟩ := hadmitted
  obtain ⟨w₂, hdrain, hnow⟩ := run_cutAfter hlong
  have hrun := run_execute_passed
    { stageTimeoutMs := some limit } hfirst hsecond hpassed hpassed' hdrain
  refine ⟨_, _, hrun, ?_⟩
  have hmetrics (place : String) : start.metrics.at? place = w.metrics.at? place := by
    rw [at?_run_plugin ((hs.datajet ctx).only.cutAfter limit) hsecond,
      at?_run_plugin ((hs.generator ctx).only.cutAfter limit) hfirst]
  have htally {counter : StageMetrics → Nat} {weight : Occurrence → Nat}
      (hadd : ∀ m o, counter (m.add o) = counter m + weight o)
      (hstart : ∀ name, counter { stage := name } = 0) :
      (w₂.perform (.count s.path.text (Node.stage s).name (.call true))).2.tally
        s.path.text counter =
        w.tally s.path.text counter +
          ((taken s.path.text (s.cutLog limit ctx start)).map fun batch =>
            weight (.batch batch.length)).sum +
          weight (.call true) := by
    rw [tally_cut hs hadd hstart hdrain, World.tally, hmetrics]
    rfl
  have hvalid : (s.judgement first second).isValidationSuccess = true := by
    simp [judgement, hpassed, hpassed']
  have herrors : (s.judgement first second).errors = [] := by
    rw [judgement_passed hpassed hpassed']
  constructor
  case cut => exact ⟨w₂, hdrain, hnow⟩
  case now_eq => exact hnow
  case isValidationSuccess => exact hvalid
  case isExecutionSuccess => rfl
  case errors_eq => exact congrArg (· ++ [_]) herrors
  case returns_isPrefix => exact (history_cutAfter_isPrefix _ limit start).filterMap _
  case returns_before =>
    rw [returns_filter_time, returns_filter_time, cutLog, history_cutAfter]
    rfl
  case time_le_of_mem =>
    intro r hr
    obtain ⟨e, he, hreturn⟩ := List.mem_filterMap.1 hr
    rw [time_return? hreturn]
    exact time_le_of_mem_history_cutAfter he
  case unlogged_cut =>
    exact ((annotates_drain hs).cutAfter limit).history (World.Alike.refl start)
  case unlogged_drain => exact (annotates_drain hs).history (World.Alike.refl start)
  case batches =>
    apply (htally StageMetrics.batches_add fun _ => rfl).trans
    simp [Occurrence.batches]
  case records => exact htally StageMetrics.records_add fun _ => rfl
  case calls =>
    apply (htally StageMetrics.calls_add fun _ => rfl).trans
    simp [Occurrence.calls]
  case failures =>
    apply (htally StageMetrics.failures_add fun _ => rfl).trans
    simp [Occurrence.failures]
  case validationFailures =>
    apply (htally StageMetrics.validationFailures_add fun _ => rfl).trans
    simp [Occurrence.validationFailures]

/-- A stage whose sink takes a while for each of three batches, and refuses the first. -/
def slowStage : Stage where
  path := .root
  generator :=
    { name := "script"
      batches := fun _ => .ofFunction 3 fun i => List.replicate i .null }
  datajet :=
    { name := "sink"
      transmit := fun _ batch _ =>
        .sleep 30 (.done (if batch.isEmpty then .error (.of "nothing") else .ok ())) }
  settings := { continueOnError := true }

theorem execute_cutOff_slowStage : slowStage.OfPlugins ∧ slowStage.Admitted 70 {} {} {} ∧
    (∀ errors w', (slowStage.drain (Node.stage slowStage).name {}).run {} = some (errors, w') →
      0 + 70 < w'.now) ∧
    ∃ o w', (slowStage.execute { stageTimeoutMs := some 70 } {}).run {} = some (o, w') ∧
      slowStage.CutOff 70 {} {} {} w' o ∧ w'.now = 70 ∧
      o.errors = ["Stage timed out after 70 ms"] ∧
      w'.tally slowStage.path.text (·.batches) = 1 := by
  have hplugins : slowStage.OfPlugins :=
    ⟨fun _ => trivial, fun _ _ => trivial, fun _ => trivial, fun _ _ _ => trivial⟩
  have hadmitted : slowStage.Admitted 70 {} {} {} := ⟨.passed, {}, .passed, rfl, rfl, rfl, rfl⟩
  have hlong (errors : List String) (w' : World)
      (h : (slowStage.drain (Node.stage slowStage).name {}).run {} = some (errors, w')) :
      0 + 70 < w'.now := by
    cases h
    decide
  obtain ⟨o, w', hrun, hcut⟩ := execute_cutOff slowStage hplugins 70 {} {} {} hadmitted hlong
  refine ⟨hplugins, hadmitted, hlong, o, w', hrun, hcut, ?_⟩
  cases hrun
  exact ⟨rfl, rfl, rfl⟩

end Stage

end DataPipeline
