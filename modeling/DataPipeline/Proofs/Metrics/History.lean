import DataPipeline.Metrics.Session
import DataPipeline.Proofs.Node.Reconciled

namespace DataPipeline.Metrics

/-- Something recorded at a place, for a collector. -/
structure Recording where
  collector : Nat
  path : String
  stage : String
  occurrence : Occurrence
  deriving DecidableEq

/-- What is recorded when a timer is stopped. -/
def Timer.recording (t : Timer) : Recording := ⟨t.collector, t.path, t.stage, .call t.failed⟩

/-- The timer that runs under an id after a history, the latest step of which comes first. -/
def running? (id : String) : List Step → Option Timer
  | [] => none
  | .start id' path stage :: past =>
    if id' = id then some ⟨past.count .fresh, path, stage, false⟩ else running? id past
  | .fail id' :: past =>
    if id' = id then (running? id past).map ({ · with failed := true }) else running? id past
  | .stop id' :: past => if id' = id then none else running? id past
  | .batch .. :: past | .invalid .. :: past | .total _ :: past | .clone :: past
  | .fresh :: past => running? id past

/-- What a step records after a history, the latest step of which comes first. -/
def Step.recorded (past : List Step) : Step → List Recording
  | .batch path stage records => [⟨past.count .fresh, path, stage, .batch records⟩]
  | .invalid path stage => [⟨past.count .fresh, path, stage, .invalid⟩]
  | .start id _ _ | .stop id => (running? id past).toList.map Timer.recording
  | .fail _ | .total _ | .clone | .fresh => []

/-- What steps after a history record, in order. -/
def recordingsFrom (past : List Step) : List Step → List Recording
  | [] => []
  | step :: steps => step.recorded past ++ recordingsFrom (step :: past) steps

/-- What a history records, in order. -/
def recordings (steps : List Step) : List Recording := recordingsFrom [] steps

/-- How a timer ends in the steps that follow: whether it has been marked as failed by then;
none if it still runs. A timer is stopped, too, where another is started under its id. -/
def ending? (id : String) (failed : Bool) : List Step → Option Bool
  | [] => none
  | .fail id' :: steps => if id' = id then ending? id true steps else ending? id failed steps
  | .stop id' :: steps
  | .start id' _ _ :: steps => if id' = id then some failed else ending? id failed steps
  | .batch .. :: steps | .invalid .. :: steps | .total _ :: steps | .clone :: steps
  | .fresh :: steps =>
    ending? id failed steps

/-- A timer of a history: where it counts, and how it ends. -/
structure Timing where
  collector : Nat
  path : String
  stage : String
  ended? : Option Bool

/-- What is recorded of a timer at its end. -/
def Timing.recording? (t : Timing) : Option Recording :=
  t.ended?.map fun failed => ⟨t.collector, t.path, t.stage, .call failed⟩

/-- The timers that are started in some steps, given the collector that is present. -/
def timingsFrom : Nat → List Step → List Timing
  | _, [] => []
  | present, .start id path stage :: steps =>
    ⟨present, path, stage, ending? id false steps⟩ :: timingsFrom present steps
  | present, .fresh :: steps => timingsFrom (present + 1) steps
  | present, .batch .. :: steps | present, .invalid .. :: steps | present, .fail _ :: steps
  | present, .stop _ :: steps
  | present, .total _ :: steps | present, .clone :: steps => timingsFrom present steps

/-- The timers of a history. -/
def timings (steps : List Step) : List Timing := timingsFrom 0 steps

/-- What a recording adds to the counters of a place. -/
def Recording.at? (collector : Nat) (path : String) (r : Recording) :
    Option (String × Occurrence) :=
  if r.collector = collector ∧ r.path = path then some (r.stage, r.occurrence) else none

namespace Session

/-- The counters of a collector. -/
def metrics (s : Session) (collector : Nat) : Metrics := (s.collectors[collector]?).getD {}

/-- The collectors and timers after a history that starts with one collector. -/
def after (steps : List Step) : Session := steps.foldl step {}

/-- A session is as its history says: the latest collector is present, and the timers run that
should. -/
structure Follows (past : List Step) (s : Session) : Prop where
  length_eq : s.collectors.length = past.count .fresh + 1
  timer?_eq : ∀ id, s.timer? id = running? id past
  nodup : (s.timers.map (·.1)).Nodup
  started : ∀ id t, running? id past = some t → t.collector ≤ past.count .fresh

variable {s : Session} {past : List Step} {id id' path stage : String}
  {collector : Nat} {t : Timer}

theorem timers_stop : (s.stop id).timers = s.timers.filter (·.1 ≠ id) := by
  unfold stop
  cases ht : s.timer? id with
  | none =>
    rw [timer?, Option.map_eq_none_iff, List.find?_eq_none] at ht
    exact (List.filter_eq_self.2 fun entry hentry => by simpa using ht entry hentry).symm
  | some t => rfl

theorem timer?_stop : (s.stop id).timer? id' = if id = id' then none else s.timer? id' := by
  rw [timer?, timers_stop]
  split
  next heq =>
    subst heq
    simp
  next hne => rw [find?_filter_key (Ne.symm hne), timer?]

theorem length_stop : (s.stop id).collectors.length = s.collectors.length := by
  unfold stop
  cases s.timer? id with
  | none => rfl
  | some t => exact List.length_modify ..

theorem started_cons (h : ∀ id t, running? id past = some t → t.collector ≤ past.count .fresh)
    (step : Step) :
    ∀ id t, running? id (step :: past) = some t →
      t.collector ≤ (step :: past).count .fresh := by
  intro id t ht
  have hcount : past.count .fresh ≤ (step :: past).count .fresh := List.count_le_count_cons
  cases step with
  | start id' path stage =>
    rw [running?] at ht
    split at ht
    · cases ht
      exact hcount
    · exact (h id t ht).trans hcount
  | fail id' =>
    rw [running?] at ht
    split at ht
    · obtain ⟨t', ht', rfl⟩ := Option.map_eq_some_iff.1 ht
      exact (h id t' ht').trans hcount
    · exact (h id t ht).trans hcount
  | stop id' =>
    rw [running?] at ht
    split at ht
    · cases ht
    · exact (h id t ht).trans hcount
  | batch | invalid | total | clone | fresh => exact (h id t ht).trans hcount

theorem timer?_fail : (s.step (.fail id)).timer? id' =
    if id = id' then (s.timer? id').map ({ · with failed := true }) else s.timer? id' := by
  have hkey : (fun entry : String × Timer => decide (entry.1 = id')) ∘
      (fun entry => if entry.1 = id then
        (entry.1, { entry.2 with failed := true }) else entry) =
        fun entry => decide (entry.1 = id') := by
    funext entry
    rw [Function.comp]
    split <;> rfl
  change ((s.timers.map _).find? _).map _ = _
  rw [List.find?_map, hkey, Option.map_map, timer?]
  cases hfound : s.timers.find? (·.1 = id') with
  | none => simp
  | some entry =>
    have hentry : entry.1 = id' := by simpa using List.find?_some hfound
    simp only [Option.map_some, Function.comp_apply, hentry, eq_comm (a := id')]
    split <;> rfl

/-- A session goes on as its history does. -/
theorem Follows.step (h : s.Follows past) (step : Step) :
    (s.step step).Follows (step :: past) := by
  obtain ⟨hlength, htimer, hnodup, hstarted⟩ := h
  have hstarted' := started_cons hstarted step
  cases step with
  | batch | invalid
  | total => exact ⟨(List.length_modify ..).trans hlength, htimer, hnodup, hstarted'⟩
  | clone => exact ⟨hlength, htimer, hnodup, hstarted'⟩
  | fresh =>
    refine ⟨?_, htimer, hnodup, hstarted'⟩
    rw [Session.step, List.length_append, hlength, List.count_cons_self]
    rfl
  | stop id =>
    refine ⟨length_stop.trans hlength, fun id' => ?_, ?_, hstarted'⟩
    · rw [Session.step, timer?_stop, running?, htimer]
    · rw [Session.step, timers_stop]
      exact hnodup.sublist (List.filter_sublist.map _)
  | fail id =>
    refine ⟨hlength, fun id' => ?_, ?_, hstarted'⟩
    · rw [timer?_fail, running?, htimer]
    · have hkeys : (s.step (.fail id)).timers.map (·.1) = s.timers.map (·.1) := by
        rw [Session.step, List.map_map]
        apply List.map_congr_left
        intro entry _
        rw [Function.comp]
        split <;> rfl
      rw [hkeys]
      exact hnodup
  | start id path stage =>
    refine ⟨length_stop.trans hlength, fun id' => ?_, ?_, hstarted'⟩
    · rw [running?]
      change (((id, _) :: (s.stop id).timers).find? _).map _ = _
      rw [List.find?_cons]
      by_cases heq : id = id'
      · subst heq
        simp [present, hlength]
      · have hstop :
            (s.stop id).timer? id' = running? id' past := by
              rw [timer?_stop, if_neg heq, htimer]
        rw [timer?] at hstop
        simpa [heq] using hstop
    · change (id :: (s.stop id).timers.map (·.1)).Nodup
      rw [timers_stop, List.nodup_cons]
      refine ⟨?_, hnodup.sublist (List.filter_sublist.map _)⟩
      rw [List.mem_map]
      rintro ⟨entry, hentry, heq⟩
      simp [heq] at hentry

theorem metrics_modify (f : Metrics → Metrics) (k : Nat) : (s.change k f).metrics collector =
    if k = collector then ((s.collectors[collector]?).map f).getD {}
      else s.metrics collector := by
  rw [metrics, change, List.getElem?_modify]
  split
  next heq => simp
  next => simp [metrics]

theorem at?_change (r : Recording) (h : r.collector < s.collectors.length) :
    ((s.change r.collector (·.count r.path r.stage r.occurrence)).metrics collector).at? path =
      (r.at? collector path).toList.foldl recount ((s.metrics collector).at? path) := by
  rw [metrics_modify, Recording.at?]
  by_cases hcollector : r.collector = collector
  · subst hcollector
    have hmetrics :
        ((s.collectors[r.collector]?).map (·.count r.path r.stage r.occurrence)).getD {} =
        (s.metrics r.collector).count r.path r.stage r.occurrence := by
      rw [metrics, List.getElem?_eq_getElem h]
      rfl
    rw [if_pos rfl, hmetrics]
    by_cases hpath : r.path = path
    · rw [if_pos ⟨rfl, hpath⟩, ← hpath]
      exact at?_count_self
    · rw [if_neg fun h => hpath h.2]
      exact at?_count_of_ne (Ne.symm hpath)
  · rw [if_neg hcollector, if_neg fun h => hcollector h.1]
    rfl

theorem metrics_stop (h : s.Follows past) : ((s.stop id).metrics collector).at? path =
    (((running? id past).toList.map Timer.recording).filterMap (·.at? collector path)).foldl
      recount ((s.metrics collector).at? path) := by
  unfold stop
  rw [h.timer?_eq]
  cases ht : running? id past with
  | none => rfl
  | some t =>
    have hlt : t.collector < s.collectors.length := by
      have := h.started id t ht
      rw [h.length_eq]
      omega
    refine (at?_change t.recording hlt).trans ?_
    simp only [Option.toList_some, List.map_cons, List.map_nil, List.filterMap_cons,
      List.filterMap_nil]
    cases t.recording.at? collector path <;> rfl

/-- The counters after a step are those before it and what it records. -/
theorem at?_step (h : s.Follows past) (step : Step) :
    ((s.step step).metrics collector).at? path =
    ((step.recorded past).filterMap (·.at? collector path)).foldl recount
      ((s.metrics collector).at? path) := by
  have hpresent :
      s.present = past.count .fresh := by rw [present, h.length_eq, Nat.add_sub_cancel]
  have hlt : past.count .fresh < s.collectors.length := by
    rw [h.length_eq]
    exact Nat.lt_succ_self _
  have hone (r : Recording) :
      [r].filterMap (·.at? collector path) = (r.at? collector path).toList := by
    rw [List.filterMap_cons]
    cases r.at? collector path <;> rfl
  cases step with
  | batch path' stage records =>
    rw [Session.step, hpresent, Step.recorded, hone]
    exact at?_change ⟨_, path', stage, .batch records⟩ hlt
  | invalid path' stage =>
    rw [Session.step, hpresent, Step.recorded, hone]
    exact at?_change ⟨_, path', stage, .invalid⟩ hlt
  | start id path' stage => exact metrics_stop h
  | stop id => exact metrics_stop h
  | total micros =>
    rw [Session.step, metrics_modify]
    split
    · rw [metrics]
      cases s.collectors[collector]? <;> rfl
    · rfl
  | fail id | clone => rfl
  | fresh =>
    have hmetrics : (s.step .fresh).metrics collector = s.metrics collector := by
      rw [metrics, metrics, Session.step, List.getElem?_append]
      split
      · rfl
      next hle =>
        rw [List.getElem?_eq_none (Nat.not_lt.1 hle)]
        cases collector - s.collectors.length <;> rfl
    rw [hmetrics]
    rfl

/-- What is recorded of a running timer when it ends in the steps that follow. -/
def lastRecording? (steps : List Step) (entry : String × Timer) : Option Recording :=
  (ending? entry.1 entry.2.failed steps).map fun failed => { entry.2 with failed }.recording

/-- The one entry under a key, and all the others. -/
theorem filterMap_key_perm {κ β γ : Type} [DecidableEq κ] {entries : List (κ × β)}
    (h : (entries.map (·.1)).Nodup) (key : κ) (f : β → γ) (g : κ × β → Option γ) :
    (entries.filterMap fun e => if key = e.1 then some (f e.2) else g e).Perm
      ((((entries.find? (·.1 = key)).map (·.2)).toList.map f) ++
        (entries.filter (·.1 ≠ key)).filterMap g) := by
  induction entries with
  | nil => exact .nil
  | cons e entries ih =>
    rw [List.map_cons, List.nodup_cons] at h
    by_cases hkey : key = e.1
    · subst hkey
      have hothers : ∀ e' ∈ entries, e'.1 ≠ e.1 :=
        fun e' he' heq => h.1 (heq ▸ List.mem_map_of_mem he')
      have hrest : (entries.filterMap fun e' => if e.1 = e'.1 then some (f e'.2) else g e') =
          entries.filterMap g := by
        apply List.filterMap_congr
        intro e' he'
        rw [if_neg (Ne.symm (hothers e' he'))]
      have hall : entries.filter (·.1 ≠ e.1) = entries := by
        rw [List.filter_eq_self]
        simpa using hothers
      rw [List.filterMap_cons, if_pos rfl, hrest, List.find?_cons_of_pos (by simp),
        List.filter_cons_of_neg (by simp), hall]
      exact .refl _
    · have hne : ¬e.1 = key := Ne.symm hkey
      rw [List.find?_cons_of_neg (by simpa using hne),
        List.filter_cons_of_pos (by simpa using hne), List.filterMap_cons,
        List.filterMap_cons, if_neg hkey]
      cases g e with
      | none => exact ih h.2
      | some c => exact ((ih h.2).cons c).trans List.perm_middle.symm

theorem lastRecording?_stop (h : s.Follows past) {step : Step} {steps : List Step}
    (hstep : ∀ id' failed, ending? id' failed (step :: steps) =
      if id = id' then some failed else ending? id' failed steps) :
    (s.timers.filterMap (lastRecording? (step :: steps))).Perm
      ((running? id past).toList.map Timer.recording ++
        (s.stop id).timers.filterMap (lastRecording? steps)) := by
  have hlast : lastRecording? (step :: steps) =
      fun e => if id = e.1 then some e.2.recording else lastRecording? steps e := by
    funext e
    rw [lastRecording?, hstep]
    split
    · rfl
    · rfl
  rw [hlast, timers_stop, ← h.timer?_eq]
  exact filterMap_key_perm h.nodup id Timer.recording _

theorem lastRecording?_fail {steps : List Step} :
    (s.step (.fail id)).timers.filterMap (lastRecording? steps) =
    s.timers.filterMap (lastRecording? (.fail id :: steps)) := by
  rw [Session.step, List.filterMap_map]
  apply List.filterMap_congr
  intro e _
  rw [Function.comp, lastRecording?, lastRecording?, ending?]
  by_cases heq : e.1 = id
  · rw [if_pos heq, if_pos heq.symm]
  · rw [if_neg heq, if_neg (Ne.symm heq)]

/-- The calls that are recorded are those of the timers that end, each of them once. -/
theorem calls_recordingsFrom (h : s.Follows past) (steps : List Step) :
    ((recordingsFrom past steps).filter (·.occurrence.calls = 1)).Perm
      (s.timers.filterMap (lastRecording? steps) ++
        (timingsFrom (past.count .fresh) steps).filterMap Timing.recording?) := by
  induction steps generalizing s past with
  | nil =>
    have hnone : s.timers.filterMap (lastRecording? []) = [] :=
      List.filterMap_eq_nil_iff.2 fun _ _ => rfl
    rw [hnone]
    exact .nil
  | cons step steps ih =>
    have hrest := ih (h.step step)
    have hcalls (id : String) :
        ((running? id past).toList.map Timer.recording).filter (·.occurrence.calls = 1) =
        (running? id past).toList.map Timer.recording := by
      rw [List.filter_eq_self, List.forall_mem_map]
      exact fun t _ => rfl
    rw [recordingsFrom, List.filter_append]
    cases step with
    | batch | invalid | total | clone => exact hrest
    | fresh =>
      rw [List.count_cons_self] at hrest
      exact hrest
    | fail id =>
      rw [lastRecording?_fail] at hrest
      exact hrest
    | stop id =>
      rw [Step.recorded, hcalls]
      refine (hrest.append_left _).trans ?_
      rw [← List.append_assoc]
      exact (lastRecording?_stop h fun id' failed => by rw [ending?]).symm.append_right _
    | start id path stage =>
      rw [Step.recorded, hcalls]
      refine (hrest.append_left _).trans ?_
      have hending (id' : String) (failed : Bool) :
          ending? id' failed (.start id path stage :: steps) =
          if id = id' then some failed else ending? id' failed steps := by rw [ending?]
      have hstop := lastRecording?_stop h hending
      refine List.Perm.trans ?_ (hstop.symm.append_right _)
      rw [List.append_assoc]
      apply List.Perm.append_left
      have hpresent :
          s.present = past.count .fresh := by rw [present, h.length_eq, Nat.add_sub_cancel]
      have hnew : lastRecording? steps (id, ⟨s.present, path, stage, false⟩) =
          Timing.recording? ⟨past.count .fresh, path, stage, ending? id false steps⟩ := by
        rw [hpresent]
        rfl
      rw [Session.step, timingsFrom, List.filterMap_cons, List.filterMap_cons, hnew]
      cases Timing.recording? ⟨past.count .fresh, path, stage, ending? id false steps⟩ with
      | none => exact .refl _
      | some r => exact List.perm_middle.symm

theorem follows_start : Follows [] {} where
  length_eq := rfl
  timer?_eq _ := rfl
  nodup := .nil
  started := nofun

theorem at?_steps (h : s.Follows past) (steps : List Step) :
    ((steps.foldl step s).metrics collector).at? path =
    ((recordingsFrom past steps).filterMap (·.at? collector path)).foldl recount
      ((s.metrics collector).at? path) := by
  induction steps generalizing s past with
  | nil => rfl
  | cons step steps ih =>
    rw [List.foldl_cons, ih (h.step step), at?_step h, recordingsFrom, List.filterMap_append,
      List.foldl_append]

end Session

end DataPipeline.Metrics
