import DataPipeline.Proofs.Metrics.History

namespace DataPipeline.Metrics

variable {collector : Nat} {path : String} {steps : List Step} {rs rs' : List Recording}

/-- What a history records for a place. -/
def recordedAt (collector : Nat) (path : String) (steps : List Step) :
    List (String × Occurrence) :=
  (recordings steps).filterMap (·.at? collector path)

theorem at?_after (collector : Nat) (path : String) (steps : List Step) :
    ((Session.after steps).metrics collector).at? path =
      (recordedAt collector path steps).foldl recount none := by
  have hnone : ((({} : Session).metrics collector).at? path) = none := by
    cases collector <;> rfl
  rw [Session.after, Session.at?_steps Session.follows_start, hnone]
  rfl

/-- All that is counted of some recordings at a place. -/
def weighAt (weight : Occurrence → Nat) (collector : Nat) (path : String)
    (rs : List Recording) : Nat :=
  (rs.map fun r => ((r.at? collector path).map fun x => weight x.2).getD 0).sum

theorem sum_filterMap_at? (weight : Occurrence → Nat) :
    ((rs.filterMap (·.at? collector path)).map fun x => weight x.2).sum =
      weighAt weight collector path rs := by
  induction rs with
  | nil => rfl
  | cons r rs ih =>
    rw [List.filterMap_cons, weighAt, List.map_cons, List.sum_cons, ← weighAt, ← ih]
    cases r.at? collector path with
    | none => exact (Nat.zero_add _).symm
    | some x => rfl

theorem weighAt_perm {weight : Occurrence → Nat} (h : rs.Perm rs') :
    weighAt weight collector path rs = weighAt weight collector path rs' := (h.map _).sum_eq

theorem weighAt_filter {weight : Occurrence → Nat} (h : ∀ o, o.calls ≠ 1 → weight o = 0) :
    weighAt weight collector path (rs.filter (·.occurrence.calls = 1)) =
      weighAt weight collector path rs := by
  induction rs with
  | nil => rfl
  | cons r rs ih =>
    by_cases hcalls : r.occurrence.calls = 1
    · rw [List.filter_cons_of_pos (by simpa using hcalls), weighAt, weighAt, List.map_cons,
        List.map_cons, List.sum_cons, List.sum_cons, ← weighAt, ← weighAt, ih]
    · have hzero : ((r.at? collector path).map fun x => weight x.2).getD 0 = 0 := by
        rw [Recording.at?]
        split
        · exact h _ hcalls
        · rfl
      rw [List.filter_cons_of_neg (by simpa using hcalls), ih, weighAt, weighAt, List.map_cons,
        List.sum_cons, hzero, Nat.zero_add]

theorem calls_recordings (steps : List Step) :
    ((recordings steps).filter (·.occurrence.calls = 1)).Perm
      ((timings steps).filterMap Timing.recording?) :=
  Session.calls_recordingsFrom Session.follows_start steps

/-- A timer has counted at a place: it was started there and has ended in some way. -/
def Timing.Ended (collector : Nat) (path : String) (how : Bool → Bool) (t : Timing) : Bool :=
  t.collector = collector && t.path = path && t.ended?.any how

theorem weighAt_timings {weight : Occurrence → Nat} {how : Bool → Bool}
    (h : ∀ failed, weight (.call failed) = if how failed then 1 else 0) (ts : List Timing) :
    weighAt weight collector path (ts.filterMap Timing.recording?) =
      ts.countP (·.Ended collector path how) := by
  induction ts with
  | nil => rfl
  | cons t ts ih =>
    rw [List.filterMap_cons, List.countP_cons, ← ih, Timing.recording?, Timing.Ended]
    cases t.ended? with
    | none => simp
    | some failed =>
      rw [Option.map_some, weighAt, List.map_cons, List.sum_cons, ← weighAt, Nat.add_comm]
      congr 1
      by_cases hplace : t.collector = collector ∧ t.path = path
      · simp [Recording.at?, hplace, h]
      · rw [Recording.at?, if_neg hplace]
        simp only [Option.map_none, Option.getD_none, Option.any_some, Bool.and_eq_true,
          decide_eq_true_eq, hplace, false_and, if_false]

/-- All the counters of a place. -/
def counters (c : StageMetrics) : List Nat :=
  [c.calls, c.failures, c.validationFailures, c.batches, c.records]

theorem counter_of_recount {c : StageMetrics} {xs : List (String × Occurrence)}
    (h : xs.foldl recount none = some c) {counter : StageMetrics → Nat}
    {weight : Occurrence → Nat} (hadd : ∀ m o, counter (m.add o) = counter m + weight o)
    (hstart : ∀ name, counter { stage := name } = 0) :
    counter c = (xs.map fun x => weight x.2).sum := by
  have hsum := getD_foldl_recount hadd hstart none xs
  rw [h] at hsum
  exact hsum.trans (Nat.zero_add _)

theorem counters_of_recount {c : StageMetrics} {xs : List (String × Occurrence)}
    (h : xs.foldl recount none = some c) :
    counters c = [Occurrence.calls, Occurrence.failures, Occurrence.validationFailures,
      Occurrence.batches, Occurrence.records].map fun weight =>
        (xs.map fun x => weight x.2).sum := by
  rw [counters, counter_of_recount h StageMetrics.calls_add fun _ => rfl,
    counter_of_recount h StageMetrics.failures_add fun _ => rfl,
    counter_of_recount h StageMetrics.validationFailures_add fun _ => rfl,
    counter_of_recount h StageMetrics.batches_add fun _ => rfl,
    counter_of_recount h StageMetrics.records_add fun _ => rfl]
  rfl

theorem recount_eq_some {c : StageMetrics} {xs : List (String × Occurrence)} :
    xs.foldl recount none = some c → xs.head?.map (·.1) = some c.stage := by
  have hstage (xs : List (String × Occurrence)) (m : StageMetrics) :
      ∃ m', xs.foldl recount (some m) = some m' ∧ m'.stage = m.stage := by
    induction xs generalizing m with
    | nil => exact ⟨m, rfl, rfl⟩
    | cons x xs ih =>
      obtain ⟨m', hm', hname⟩ := ih (m.add x.2)
      refine ⟨m', hm', hname.trans ?_⟩
      cases x.2 <;> rfl
  cases xs with
  | nil => nofun
  | cons x xs =>
    intro h
    obtain ⟨m', hm', hname⟩ := hstage xs (StageMetrics.add { stage := x.1 } x.2)
    have heq : some m' = some c := hm'.symm.trans h
    cases heq
    rw [hname]
    cases x.2 <;> rfl

theorem isSome_foldl_recount {xs : List (String × Occurrence)} :
    (xs.foldl recount none).isSome = true ↔ xs ≠ [] := by
  have hsome (xs : List (String × Occurrence)) (m : StageMetrics) :
      (xs.foldl recount (some m)).isSome = true := by
    induction xs generalizing m with
    | nil => rfl
    | cons x xs ih => exact ih _
  cases xs with
  | nil => simp
  | cons x xs => exact ⟨fun _ => List.cons_ne_nil x xs, fun _ => hsome xs _⟩

/-- In whatever order the same is recorded, the counters are the same. -/
theorem counters_perm {xs ys : List (String × Occurrence)} (h : xs.Perm ys) :
    (xs.foldl recount none).map counters = (ys.foldl recount none).map counters := by
  cases hx : xs.foldl recount none with
  | none =>
    have hnil : xs = [] := by
      by_contra hne
      have hsome := isSome_foldl_recount.2 hne
      rw [hx] at hsome
      cases hsome
    rw [hnil] at h
    rw [List.nil_perm.1 h]
    rfl
  | some c =>
    have hys : ys ≠ [] := by
      rintro rfl
      rw [List.perm_nil.1 h] at hx
      cases hx
    obtain ⟨c', hy⟩ := Option.isSome_iff_exists.1 (isSome_foldl_recount.2 hys)
    rw [hy, Option.map_some, Option.map_some, counters_of_recount hx, counters_of_recount hy]
    congr 1
    apply List.map_congr_left
    intro weight _
    exact (h.map _).sum_eq

section Swap

variable {past past' : List Step} {a b : Step} {id : String}

/-- The timer that a step starts, marks or stops. -/
def Step.timer? : Step → Option String
  | .start id _ _ | .fail id | .stop id => some id
  | .batch .. | .invalid .. | .total _ | .clone | .fresh => none

theorem running?_cons_of_ne (h : a.timer? ≠ some id) :
    running? id (a :: past) = running? id past := by
  cases a with
  | start id' | fail id' | stop id' =>
    have hne : id' ≠ id := fun heq => h (congrArg some heq)
    rw [running?, if_neg hne]
  | batch | invalid | total | clone | fresh => rfl

theorem running?_cons_congr (h : running? id past = running? id past')
    (hfresh : past.count .fresh = past'.count .fresh) :
    running? id (a :: past) = running? id (a :: past') := by
  cases a with
  | start | fail | stop => simp only [running?, h, hfresh]
  | batch | invalid | total | clone | fresh => exact h

theorem recordingsFrom_congr (h : ∀ id, running? id past = running? id past')
    (hfresh : past.count .fresh = past'.count .fresh) (steps : List Step) :
    recordingsFrom past steps = recordingsFrom past' steps := by
  induction steps generalizing past past' with
  | nil => rfl
  | cons step steps ih =>
    have hstep : step.recorded past = step.recorded past' := by
      cases step with
      | batch | invalid => rw [Step.recorded, Step.recorded, hfresh]
      | start | stop => rw [Step.recorded, Step.recorded, h]
      | fail | total | clone | fresh => rfl
    have hcount : (step :: past).count .fresh = (step :: past').count .fresh := by
      rw [List.count_cons, List.count_cons, hfresh]
    rw [recordingsFrom, recordingsFrom, hstep,
      ih (fun id => running?_cons_congr (h id) hfresh) hcount]

theorem recordingsFrom_append (past before steps : List Step) :
    recordingsFrom past (before ++ steps) =
    recordingsFrom past before ++ recordingsFrom (before.reverse ++ past) steps := by
  induction before generalizing past with
  | nil => rfl
  | cons step before ih =>
    rw [List.cons_append, recordingsFrom, recordingsFrom, ih, List.append_assoc,
      List.reverse_cons, List.append_assoc]
    rfl

theorem recorded_cons (ha : a ≠ .fresh) (h : ∀ id, a.timer? = some id → b.timer? ≠ some id) :
    b.recorded (a :: past) = b.recorded past := by
  have hcount : (a :: past).count .fresh = past.count .fresh := List.count_cons_of_ne ha
  cases b with
  | batch | invalid => rw [Step.recorded, Step.recorded, hcount]
  | start id | stop id =>
    rw [Step.recorded, Step.recorded, running?_cons_of_ne]
    exact fun heq => h id heq rfl
  | fail | total | clone | fresh => rfl

theorem running?_swap (ha : a ≠ .fresh) (hb : b ≠ .fresh)
    (h : ∀ id, a.timer? = some id → b.timer? ≠ some id) (id : String) :
    running? id (b :: a :: past) = running? id (a :: b :: past) := by
  have hcount {step : Step} (hstep : step ≠ .fresh) :
      (step :: past).count .fresh = past.count .fresh :=
    List.count_cons_of_ne hstep
  by_cases hid : a.timer? = some id
  · rw [running?_cons_of_ne (h id hid)]
    exact running?_cons_congr (running?_cons_of_ne (h id hid)).symm (hcount hb).symm
  · rw [running?_cons_of_ne (a := a) hid]
    exact running?_cons_congr (running?_cons_of_ne hid) (hcount ha)

theorem recordings_swap (before after : List Step) (ha : a ≠ .fresh) (hb : b ≠ .fresh)
    (h : ∀ id, a.timer? = some id → b.timer? ≠ some id) :
    (recordings (before ++ b :: a :: after)).Perm (recordings (before ++ a :: b :: after)) := by
  have h' : ∀ id, b.timer? = some id → a.timer? ≠ some id := fun id hid heq => h id heq hid
  have hafter (past : List Step) :
      recordingsFrom (a :: b :: past) after = recordingsFrom (b :: a :: past) after := by
    apply recordingsFrom_congr (fun id => (running?_swap ha hb h id).symm)
    simp only [List.count_cons_of_ne ha, List.count_cons_of_ne hb]
  rw [recordings, recordings, recordingsFrom_append, recordingsFrom_append]
  simp only [recordingsFrom, recorded_cons ha h, recorded_cons hb h', hafter]
  apply List.Perm.append_left
  rw [← List.append_assoc, ← List.append_assoc]
  exact List.perm_append_comm.append_right _

end Swap

/-- The number of records of a batch. -/
def taken? : Occurrence → Option Nat
  | .batch records => some records
  | .invalid | .call _ => none

/-- The counters of a place, if there are any, are what a history tells of it: its timers that
have ended, and those of them that were marked as failed by then, the refusals and the batches
that were recorded there; and the name of the place is the one that it was recorded under
first. -/
structure Tells (steps : List Step) (collector : Nat) (path : String)
    (c? : Option StageMetrics) : Prop where
  entry : c?.isSome = true ↔ ∃ r ∈ recordings steps, r.collector = collector ∧ r.path = path
  stage : ∀ c, c? = some c → (recordedAt collector path steps).head?.map (·.1) = some c.stage
  calls :
    ∀ c, c? = some c → c.calls = (timings steps).countP (·.Ended collector path fun _ => true)
  failures : ∀ c, c? = some c →
    c.failures = (timings steps).countP (·.Ended collector path fun failed => failed)
  failures_le : ∀ c, c? = some c → c.failures ≤ c.calls
  validationFailures : ∀ c, c? = some c →
    c.validationFailures = (recordedAt collector path steps).countP (·.2 = .invalid)
  batches : ∀ c, c? = some c →
    c.batches = ((recordedAt collector path steps).filterMap (taken? ·.2)).length
  records : ∀ c, c? = some c →
    c.records = ((recordedAt collector path steps).filterMap (taken? ·.2)).sum

theorem recordedAt_ne_nil : recordedAt collector path steps ≠ [] ↔
    ∃ r ∈ recordings steps, r.collector = collector ∧ r.path = path := by
  rw [recordedAt, Ne, List.filterMap_eq_nil_iff]
  simp [Recording.at?]

theorem sum_recordedAt {weight : Occurrence → Nat} {how : Bool → Bool}
    (hzero : ∀ o, o.calls ≠ 1 → weight o = 0)
    (hcall : ∀ failed, weight (.call failed) = if how failed then 1 else 0) :
    ((recordedAt collector path steps).map fun x => weight x.2).sum =
      (timings steps).countP (·.Ended collector path how) := by
  rw [recordedAt, sum_filterMap_at?, ← weighAt_filter hzero,
    weighAt_perm (calls_recordings steps), weighAt_timings hcall]

/-- A counter of calls alone is the number of timers that have ended in the way it counts. -/
theorem counter_eq_ended {counter : StageMetrics → Nat} {weight : Occurrence → Nat}
    {how : Bool → Bool} {c : StageMetrics}
    (h : (recordedAt collector path steps).foldl recount none = some c)
    (hadd : ∀ m o, counter (m.add o) = counter m + weight o)
    (hstart : ∀ name, counter { stage := name } = 0) (hinvalid : weight .invalid = 0)
    (hbatch : ∀ records, weight (.batch records) = 0)
    (hcall : ∀ failed, weight (.call failed) = if how failed then 1 else 0) :
    counter c = (timings steps).countP (·.Ended collector path how) := by
  rw [counter_of_recount h hadd hstart]
  apply sum_recordedAt _ hcall
  intro o ho
  cases o with
  | batch records => exact hbatch records
  | invalid => exact hinvalid
  | call failed => exact absurd rfl ho

theorem countP_ended_le : (timings steps).countP (·.Ended collector path fun failed => failed) ≤
    (timings steps).countP (·.Ended collector path fun _ => true) := by
  apply List.countP_mono_left
  intro t _ ht
  simp only [Timing.Ended, Bool.and_eq_true] at ht ⊢
  refine ⟨ht.1, ?_⟩
  cases hended : t.ended? with
  | none =>
    rw [hended] at ht
    exact ht.2
  | some failed => rfl

section

variable (xs : List (String × Occurrence))

theorem sum_validationFailures :
    (xs.map (·.2.validationFailures)).sum = xs.countP (·.2 = .invalid) := by
  induction xs with
  | nil => rfl
  | cons x xs ih =>
    rw [List.map_cons, List.sum_cons, ih, List.countP_cons, Nat.add_comm]
    congr 1
    cases x.2 <;> rfl

theorem sum_batches : (xs.map (·.2.batches)).sum = (xs.filterMap (taken? ·.2)).length := by
  induction xs with
  | nil => rfl
  | cons x xs ih =>
    rw [List.map_cons, List.sum_cons, ih, List.filterMap_cons]
    cases x.2 with
    | batch records => exact Nat.add_comm _ _
    | invalid | call => exact Nat.zero_add _

theorem sum_records : (xs.map (·.2.records)).sum = (xs.filterMap (taken? ·.2)).sum := by
  induction xs with
  | nil => rfl
  | cons x xs ih =>
    rw [List.map_cons, List.sum_cons, ih, List.filterMap_cons]
    cases x.2 with
    | batch records => rfl
    | invalid | call => exact Nat.zero_add _

end

theorem tells_after (steps : List Step) (collector : Nat) (path : String) :
    Tells steps collector path (((Session.after steps).metrics collector).at? path) := by
  rw [at?_after]
  have hcalls {c : StageMetrics}
      (h : (recordedAt collector path steps).foldl recount none = some c) :
      c.calls = (timings steps).countP (·.Ended collector path fun _ => true) :=
    counter_eq_ended h StageMetrics.calls_add (fun _ => rfl) rfl (fun _ => rfl) fun _ => rfl
  have hfailures {c : StageMetrics}
      (h : (recordedAt collector path steps).foldl recount none = some c) :
      c.failures = (timings steps).countP (·.Ended collector path fun failed => failed) :=
    counter_eq_ended h StageMetrics.failures_add (fun _ => rfl) rfl (fun _ => rfl) fun _ => rfl
  constructor
  case entry => rw [isSome_foldl_recount, recordedAt_ne_nil]
  case stage => exact fun c => recount_eq_some
  case calls => exact fun c => hcalls
  case failures => exact fun c => hfailures
  case failures_le =>
    intro c h
    rw [hcalls h, hfailures h]
    exact countP_ended_le
  case validationFailures =>
    intro c h
    rw [counter_of_recount h StageMetrics.validationFailures_add fun _ => rfl]
    exact sum_validationFailures _
  case batches =>
    intro c h
    rw [counter_of_recount h StageMetrics.batches_add fun _ => rfl]
    exact sum_batches _
  case records =>
    intro c h
    rw [counter_of_recount h StageMetrics.records_add fun _ => rfl]
    exact sum_records _

/-- A place that has counters keeps them under its name, and none of them falls. -/
def Grows (c? c'? : Option StageMetrics) : Prop :=
  ∀ c, c? = some c →
    ∃ c', c'? = some c' ∧ c'.stage = c.stage ∧ List.Forall₂ (· ≤ ·) (counters c) (counters c')

theorem grows_append (xs ys : List (String × Occurrence)) :
    Grows (xs.foldl recount none) ((xs ++ ys).foldl recount none) := by
  intro c hc
  have hne : xs ++ ys ≠ [] := by
    apply List.append_ne_nil_of_left_ne_nil
    rintro rfl
    cases hc
  obtain ⟨c', hc'⟩ := Option.isSome_iff_exists.1 (isSome_foldl_recount.2 hne)
  refine ⟨c', hc', ?_, ?_⟩
  · have hhead := recount_eq_some hc
    have hhead' := recount_eq_some hc'
    cases xs with
    | nil => cases hc
    | cons x xs => exact Option.some.inj (hhead'.symm.trans hhead)
  · rw [counters_of_recount hc, counters_of_recount hc', List.forall₂_map_left_iff,
      List.forall₂_map_right_iff, List.forall₂_same]
    intro weight _
    rw [List.map_append, List.sum_append]
    exact Nat.le_add_right _ _

theorem follows_after (steps : List Step) : (Session.after steps).Follows steps.reverse := by
  have hfollows {s : Session} {past : List Step} (h : s.Follows past) (steps : List Step) :
      (steps.foldl Session.step s).Follows (steps.reverse ++ past) := by
    induction steps generalizing s past with
    | nil => exact h
    | cons step steps ih =>
      rw [List.reverse_cons, List.append_assoc]
      exact ih (h.step step)
  have hsteps := hfollows Session.follows_start steps
  rwa [List.append_nil] at hsteps

/-- Collectors count a history exactly, in whatever order it happens. For each collector and
each place the counters are those that the history tells of; each timer that has ended is
recorded once, where it was started; a further step lowers no counter; and no counter changes
when two steps change places that are not both about one timer. The counters that can be seen
are those of the latest collector. -/
theorem after_exact (steps : List Step) (collector : Nat) (path : String) :
    Tells steps collector path (((Session.after steps).metrics collector).at? path) ∧
    ((recordings steps).filter (·.occurrence.calls = 1)).Perm
      ((timings steps).filterMap Timing.recording?) ∧
    (∀ step, Grows (((Session.after steps).metrics collector).at? path)
      (((Session.after (steps ++ [step])).metrics collector).at? path)) ∧
    (∀ before a b after, steps = before ++ a :: b :: after → a ≠ .fresh → b ≠ .fresh →
      (∀ id, a.timer? = some id → b.timer? ≠ some id) →
      (((Session.after (before ++ b :: a :: after)).metrics collector).at? path).map counters =
        (((Session.after steps).metrics collector).at? path).map counters) ∧
    (Session.after steps).snapshot = (Session.after steps).metrics (steps.count .fresh) := by
  refine ⟨tells_after steps collector path, calls_recordings steps, ?_, ?_, ?_⟩
  · intro step
    rw [at?_after, at?_after, recordedAt, recordedAt, recordings, recordings,
      recordingsFrom_append, List.filterMap_append]
    exact grows_append _ _
  · rintro before a b after rfl ha hb h
    rw [at?_after, at?_after]
    exact counters_perm ((recordings_swap before after ha hb h).filterMap _)
  · have hlength := (follows_after steps).length_eq
    rw [List.count_reverse] at hlength
    rw [Session.snapshot, Session.present, hlength, Nat.add_sub_cancel]
    rfl

/-- Two timers at one place, of which the one that is marked as failed ends last, and a third
that does not end. -/
def overlappingTimers : List Step := [
  .start "a" "$" "first", .start "b" "$" "second", .fail "a", .batch "$" "third" 3, .clone,
  .stop "b", .stop "a", .start "c" "$.child" "fourth"]

theorem after_exact_overlappingTimers : ∃ c,
    ((Session.after overlappingTimers).metrics 0).at? "$" = some c ∧ c.stage = "third" ∧
    counters c = [2, 1, 0, 1, 3] ∧
    c.calls = (timings overlappingTimers).countP (·.Ended 0 "$" fun _ => true) ∧
    ((Session.after overlappingTimers).metrics 0).at? "$.child" = none ∧
    overlappingTimers =
      overlappingTimers.take 2 ++ .fail "a" :: .batch "$" "third" 3 ::
        overlappingTimers.drop 4 ∧
    (((Session.after (overlappingTimers.take 2 ++
      .batch "$" "third" 3 :: .fail "a" :: overlappingTimers.drop 4)).metrics 0).at? "$").map
      counters = (((Session.after overlappingTimers).metrics 0).at? "$").map counters := by
  obtain ⟨htells, _, _, hswap, _⟩ := after_exact overlappingTimers 0 "$"
  obtain ⟨c, hc⟩ :
      ∃ c, ((Session.after overlappingTimers).metrics 0).at? "$" = some c := ⟨_, rfl⟩
  refine ⟨c, hc, ?_, ?_, htells.calls c hc, rfl, rfl,
    hswap _ _ _ _ rfl (by decide) (by decide) fun id _ => nofun⟩
  · cases hc
    rfl
  · cases hc
    rfl

end DataPipeline.Metrics
