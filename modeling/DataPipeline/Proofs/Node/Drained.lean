import DataPipeline.Plugin.Datajets
import DataPipeline.Proofs.Node.Stagewise
import DataPipeline.Proofs.Node.Watched
import DataPipeline.Proofs.Run.History

namespace DataPipeline

namespace Activity

variable {α β : Type}

/-- The activity up to a point in time, if there is one. -/
def until? (deadline : Option Nat) (p : Activity α) (w : World) : Option (Option α × World) :=
  (p.within (deadline.map (· - w.now))).run w

theorem until?_done (deadline : Option Nat) (a : α) (w : World) :
    (done a).until? deadline w = some (some a, w) := by
  cases deadline <;> rfl

/-- An activity is followed by another under the same deadline, unless it is cut off itself. -/
theorem until?_bind (deadline : Option Nat) (p : Activity α) (f : α → Activity β) (w : World) :
    (p.bind f).until? deadline w = (p.until? deadline w).bind fun r =>
      match r with
      | (none, w') => some (none, w')
      | (some a, w') => (f a).until? deadline w' := by
  cases deadline with
  | none =>
    simp only [until?, Option.map_none, within, run_bind, Option.bind_assoc]
    rfl
  | some d =>
    simp only [until?, Option.map_some, within]
    induction p generalizing w with
    | done a => rfl
    | act op next ih =>
      simp only [bind, cutAfter, run]
      rw [← World.now_perform w op]
      exact ih _ _
    | sleep ms next ih =>
      simp only [bind, cutAfter]
      split
      · simp only [run]
        rw [Nat.sub_sub]
        exact ih { w with now := w.now + ms }
      · rfl
    | stall => rfl

end Activity

namespace Stage

/-- What becomes of an item that is pulled from a stream: it is sent on, it could not be made,
or the sink has refused it. -/
inductive Fate where
  | sent
  | unmade (c : Chain)
  | refused (c : Chain)

/-- What there is to report of the item with a number. -/
def Fate.message? (s : Stage) (number : Nat) : Fate → Option String
  | sent => none
  | unmade c => some
      (s.generator.name ++ " failed to produce batch " ++ toString number ++ ": " ++ c.text)
  | refused c => some
      (s.datajet.name ++ " failed to transmit batch " ++ toString number ++ ": " ++ c.text)

variable (s : Stage) (name : String) (ctx : RunContext) (stream : BatchStream)

/-- Pulls the item at a position and sends it on. -/
def handle (i : Nat) : Activity Fate := do
  match ← stream.pull i with
  | .error c => .done (.unmade c)
  | .ok batch => do
    let earlier ← Activity.perform (.offer s.path.text batch)
    match ← s.datajet.transmit earlier batch ctx with
    | .error c => .done (.refused c)
    | .ok () =>
      Activity.perform (.count s.path.text name (.batch batch.length))
      .done .sent

/-- What became of the items whose fate was settled, whether the drain was cut off, and the
world that it leaves. -/
structure Course where
  fates : List Fate
  cut : Bool
  world : World

/-- The course of a drain from a position on, in which at most `n` items are pulled; none if it
has no end. -/
def course (deadline : Option Nat) : Nat → Nat → World → Option Course
  | 0, _, w => some ⟨[], false, w⟩
  | n + 1, i, w =>
    match (s.handle name ctx stream i).until? deadline w with
    | none => none
    | some (none, w') => some ⟨[], true, w'⟩
    | some (some fate, w') =>
      if (fate.message? s (i + 1)).isSome && !s.settings.continueOnError then
        some ⟨[fate], false, w'⟩
      else (course deadline n (i + 1) w').map fun c => { c with fates := fate :: c.fates }

/-- What there is to report of items from a position on. -/
def messages : Nat → List Fate → List String
  | _, [] => []
  | i, fate :: rest => (fate.message? s (i + 1)).toList ++ messages (i + 1) rest

variable {s name ctx stream}

theorem drainFrom_succ (n i : Nat) : s.drainFrom name ctx stream (n + 1) i =
    (s.handle name ctx stream i).bind fun fate =>
      match fate.message? s (i + 1) with
      | none => s.drainFrom name ctx stream n (i + 1)
      | some error =>
        if s.settings.continueOnError then
          (s.drainFrom name ctx stream n (i + 1)).bind fun errors => .done (error :: errors)
        else .done [error] := by
  change (stream.pull i).bind _ = ((stream.pull i).bind _).bind _
  rw [bind_bind]
  congr 1
  funext item
  cases item with
  | error c => rfl
  | ok batch =>
    change Activity.act _ _ = Activity.act _ _
    congr 1
    funext earlier
    change ((s.datajet.transmit earlier batch ctx).bind _).bind _ =
      ((s.datajet.transmit earlier batch ctx).bind _).bind _
    rw [bind_bind, bind_bind]
    congr 1
    funext result
    cases result with
    | error c => rfl
    | ok _ => rfl

/-- A drain reports the messages of its course, and nothing if it is cut off. -/
theorem until?_drainFrom (deadline : Option Nat) (n i : Nat) (w : World) :
    (s.drainFrom name ctx stream n i).until? deadline w =
      (s.course name ctx stream deadline n i w).map fun c =>
        (if c.cut then none else some (s.messages i c.fates), c.world) := by
  induction n generalizing i w with
  | zero => exact Activity.until?_done deadline [] w
  | succ n ih =>
    rw [drainFrom_succ, Activity.until?_bind, course]
    cases (s.handle name ctx stream i).until? deadline w with
    | none => rfl
    | some r =>
      obtain ⟨fate?, w'⟩ := r
      cases fate? with
      | none => rfl
      | some fate =>
        dsimp only [Option.bind_some]
        cases hmessage : fate.message? s (i + 1) with
        | none =>
          simp only [Option.isSome_none, Bool.false_and, Bool.false_eq_true, if_false, ih,
            Option.map_map]
          simp [Function.comp_def, messages, hmessage]
        | some error =>
          by_cases hcontinue : s.settings.continueOnError = true
          · simp only [hcontinue, if_true, Bool.not_true, Bool.and_false,
              Bool.false_eq_true, if_false, Activity.until?_bind, ih, Option.map_map]
            cases s.course name ctx stream deadline n (i + 1) w' with
            | none => rfl
            | some c =>
              cases hcut : c.cut <;>
                simp [hcut, messages, hmessage, Activity.until?_done]
          · simp [hcontinue, messages, hmessage, Activity.until?_done]

/-- If a drain stops at the first failure, then nothing has failed before it is cut off. -/
theorem messages_of_cut {deadline : Option Nat} {n i : Nat} {w : World} {c : Course}
    (hcontinue : s.settings.continueOnError = false)
    (h : s.course name ctx stream deadline n i w = some c) (hcut : c.cut = true) :
    s.messages i c.fates = [] := by
  induction n generalizing i w c with
  | zero =>
    cases h
    rfl
  | succ n ih =>
    rw [course] at h
    split at h
    · cases h
    · cases h
      rfl
    next fate w' _ =>
      split at h
      · cases h
        cases hcut
      next hstop =>
        obtain ⟨c, hc, rfl⟩ := Option.map_eq_some_iff.1 h
        have hmessage : fate.message? s (i + 1) = none := by simpa [hcontinue] using hstop
        rw [messages, hmessage, ih hc hcut]
        rfl

theorem mem_message {fate : Fate} {number : Nat} {error : String}
    (h : fate.message? s number = some error) :
    'b' ∈ error.toList := by
  cases fate with
  | sent => cases h
  | unmade c | refused c =>
    cases h
    simp [String.toList_append]

theorem mem_of_mem_messages {fates : List Fate} {i : Nat} {error : String}
    (h : error ∈ s.messages i fates) :
    'b' ∈ error.toList := by
  induction fates generalizing i with
  | nil => cases h
  | cons fate rest ih =>
    rcases List.mem_append.1 h with h | h
    · exact mem_message (Option.mem_toList.1 h)
    · exact ih h

/-- What is reported of a drain that is cut off. -/
def cutMessage (settings : RunSettings) : String :=
  "Stage timed out after " ++ toString (settings.stageTimeoutMs.getD 0) ++ " ms"

theorem notMem_cutMessage (settings : RunSettings) : 'b' ∉ (cutMessage settings).toList := by
  change 'b' ∉
    ("Stage timed out after " ++ toString (settings.stageTimeoutMs.getD 0) ++ " ms").toList
  rw [String.toList_append, String.toList_append, Nat.toString_eq_repr, Nat.toList_repr]
  intro h
  rcases List.mem_append.1 h with h | h
  · rcases List.mem_append.1 h with h | h
    · revert h
      decide
    · have hdigit : 'b'.isDigit = true := Nat.isDigit_of_mem_toDigits (by decide) (by decide) h
      revert hdigit
      decide
  · revert h
    decide

theorem messages_sublist_cutMessage {fates : List Fate} {i : Nat} {settings : RunSettings} :
    (s.messages i fates).Sublist [cutMessage settings] ↔ s.messages i fates = [] := by
  constructor
  · intro h
    rw [List.eq_nil_iff_forall_not_mem]
    intro error herror
    have heq := List.mem_singleton.1 (h.subset herror)
    rw [heq] at herror
    exact notMem_cutMessage settings (mem_of_mem_messages herror)
  · intro h
    rw [h]
    exact List.nil_sublist _

/-- A world in which both validators of a stage have been asked. -/
def Asked (s : Stage) (settings : RunSettings) (ctx : RunContext) (w start : World) : Prop :=
  ∃ first second w', ((s.generator.validate ctx).within settings.stageTimeoutMs).run w =
    some (first, w') ∧
    ((s.datajet.validate ctx).within settings.stageTimeoutMs).run w' = some (second, start)

/-- How many items a stage may pull: all of its stream, but no more than the batches to which it
is limited. -/
def allowance (s : Stage) (ctx : RunContext) : Nat :=
  let offered := (s.generator.batches ctx).length
  match s.settings.maxBatches with
  | none => offered
  | some most => min offered most

theorem quota_eq_allowance : s.quota (s.generator.batches ctx) = s.allowance ctx := by
  rw [quota, allowance]
  cases s.settings.maxBatches with
  | none => rfl
  | some most => exact Nat.min_comm _ _

theorem drain_eq (s : Stage) (name : String) (ctx : RunContext) : s.drain name ctx =
    s.drainFrom name ctx (s.generator.batches ctx) (s.allowance ctx) 0 := by
  rw [drain, quota_eq_allowance]

/-- The course of the drain of a stage from a world on. -/
def drainCourse (s : Stage) (settings : RunSettings) (ctx : RunContext) (start : World) :
    Option Course :=
  s.course (Node.stage s).name ctx (s.generator.batches ctx)
    (settings.stageTimeoutMs.map (start.now + ·)) (s.allowance ctx) 0 start

theorem run_within_drain (settings : RunSettings) (start : World) :
    ((s.drain (Node.stage s).name ctx).within settings.stageTimeoutMs).run start =
      (s.drainCourse settings ctx start).map fun c =>
        (if c.cut then none else some (s.messages 0 c.fates), c.world) := by
  have hlimit : (settings.stageTimeoutMs.map (start.now + ·)).map (· - start.now) =
      settings.stageTimeoutMs := by
    cases settings.stageTimeoutMs <;> simp
  rw [drainCourse, ← until?_drainFrom, Activity.until?, hlimit, drain_eq]

/-- What the errors of a valid stage are. -/
theorem errors_of_run {settings : RunSettings} {w w' : World} {o : Outcome}
    (hrun : (s.execute settings ctx).run w = some (o, w'))
    (hvalid : o.isValidationSuccess = true) :
    ∃ start c, s.Asked settings ctx w start ∧ s.drainCourse settings ctx start = some c ∧
      o.errors = if c.cut then [cutMessage settings] else s.messages 0 c.fates := by
  rw [execute_eq_executeIn] at hrun
  change ((((s.generator.validate ctx).within _).bind fun first =>
    ((s.datajet.validate ctx).within _).bind fun second => _).run w) = _ at hrun
  rw [Activity.run_bind] at hrun
  obtain ⟨⟨first, w₁⟩, hfirst, hrun⟩ := Option.bind_eq_some_iff.1 hrun
  rw [Activity.run_bind] at hrun
  obtain ⟨⟨second, start⟩, hsecond, hrun⟩ := Option.bind_eq_some_iff.1 hrun
  have hjudged : (s.verdict settings first second).Judged (Node.stage s).descriptor :=
    ((Outcome.judged_start _).recordVerdict _ _).recordVerdict _ _
  generalize s.verdict settings first second = v at hrun hjudged
  rw [proceed] at hrun
  dsimp only at hrun
  split at hrun
  next hinvalid =>
    change (Activity.act _ _).run start = _ at hrun
    cases hrun
    have hvalid : v.isValidationSuccess = true := hvalid
    simp [hvalid] at hinvalid
  next hvalidated =>
    have hnone := hjudged.validation.1 (by simpa using hvalidated)
    change ((Activity.within _ (s.drain _ ctx)).bind _).run start = _ at hrun
    rw [Activity.run_bind] at hrun
    obtain ⟨⟨errors?, w₂⟩, herrors, hrun⟩ := Option.bind_eq_some_iff.1 hrun
    obtain ⟨c, hc, heq⟩ :=
      Option.map_eq_some_iff.1 ((run_within_drain settings start).symm.trans herrors)
    refine ⟨start, c, ⟨first, second, w₁, hfirst, hsecond⟩, hc, ?_⟩
    cases heq
    cases hrun
    rw [Outcome.foldl_fail, hnone]
    cases c.cut <;> rfl

/-- Whatever fails in a stage with valid plugins is reported, in order, if the drain comes to
its end. If it is cut off, that it was is all that is reported, and what has failed before is
lost; a stage that stops at the first failure loses nothing. -/
theorem execute_keeps_errors (s : Stage) (settings : RunSettings) (ctx : RunContext)
    (w w' : World) (o : Outcome) (hrun : (s.execute settings ctx).run w = some (o, w'))
    (hvalid : o.isValidationSuccess = true) :
    ∃ start c, s.Asked settings ctx w start ∧ s.drainCourse settings ctx start = some c ∧
      (c.cut = false → o.errors = s.messages 0 c.fates) ∧
      (c.cut = true → o.errors = [cutMessage settings]) ∧
      ((s.messages 0 c.fates).Sublist o.errors ↔ c.cut = false ∨ s.messages 0 c.fates = []) ∧
      (s.settings.continueOnError = false → (s.messages 0 c.fates).Sublist o.errors) := by
  obtain ⟨start, c, hasked, hc, herrors⟩ := errors_of_run hrun hvalid
  refine ⟨start, c, hasked, hc, ?_⟩
  cases hcut : c.cut with
  | false =>
    have heq : o.errors = s.messages 0 c.fates := by simpa [hcut] using herrors
    simp [heq]
  | true =>
    have heq : o.errors = [cutMessage settings] := by simpa [hcut] using herrors
    rw [heq, messages_sublist_cutMessage]
    refine ⟨nofun, fun _ => rfl, by simp, fun hcontinue => ?_⟩
    exact messages_of_cut hcontinue hc hcut

/-- A stage whose first item cannot be made, and whose second takes a while. -/
def failingStage : Stage where
  path := .root
  generator :=
    { name := "script"
      batches := fun _ =>
        ⟨2, fun i =>
          if i = 0 then .done (.error (.of "boom")) else .sleep 100 (.done (.ok []))⟩ }
  datajet := discardDatajet
  settings := { continueOnError := true }

theorem execute_keeps_errors_failingStage :
    ∃ o w' c, (failingStage.execute {} {}).run {} = some (o, w') ∧
    o.isValidationSuccess = true ∧ failingStage.drainCourse {} {} {} = some c ∧ c.cut = false ∧
      o.errors = failingStage.messages 0 c.fates ∧
      o.errors = ["script failed to produce batch 1: boom"] := by
  obtain ⟨start, c, ⟨first, second, w', hfirst, hsecond⟩, hc, hkept, _⟩ :=
    execute_keeps_errors failingStage {} {} {} _ _ rfl rfl
  cases hfirst
  cases hsecond
  cases hc
  exact ⟨_, _, _, rfl, rfl, rfl, rfl, hkept rfl, hkept rfl⟩

/-- A failure is lost if the drain goes on after it and is then cut off. -/
theorem not_forall_errors_kept :
    ¬∀ (s : Stage) (settings : RunSettings) (ctx : RunContext) (w w' start : World)
    (o : Outcome) (c : Course),
    (s.execute settings ctx).run w = some (o, w') → o.isValidationSuccess = true →
    s.Asked settings ctx w start → s.drainCourse settings ctx start = some c →
    (s.messages 0 c.fates).Sublist o.errors := by
  intro hall
  have hkept := hall failingStage ⟨some 10⟩ {} {} _ {} _ _ rfl rfl ⟨_, _, _, rfl, rfl⟩ rfl
  have hnone := messages_sublist_cutMessage.1 hkept
  cases hnone

end Stage

end DataPipeline
