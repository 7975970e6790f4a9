import DataPipeline.Proofs.Disk.Target
import DataPipeline.Proofs.Run.Alone

namespace DataPipeline

namespace Metrics

/-- The counters of a place, looked for where they stand in ascending order. -/
def at? (m : Metrics) (path : String) : Option StageMetrics := go m.stages
where
  go : List (String × StageMetrics) → Option StageMetrics
    | [] => none
    | (p, m) :: rest => if path < p then none else if path = p then some m else go rest

variable {m : Metrics} {path stage : String} {o : Occurrence}

theorem at?_count_self :
    (m.count path stage o).at? path = some (((m.at? path).getD { stage }).add o) := by
  obtain ⟨stages, total⟩ := m
  unfold at? count
  induction stages with
  | nil => simp [addTo, at?.go]
  | cons entry rest ih =>
    obtain ⟨p, counters⟩ := entry
    rw [addTo]
    by_cases hlt : path < p
    · simp [at?.go, hlt]
    · by_cases heq : path = p
      · simp [at?.go, heq]
      · simp only [hlt, heq, ↓reduceIte, at?.go]
        exact ih

theorem at?_count_of_ne {other : String} (h : other ≠ path) :
    (m.count path stage o).at? other = m.at? other := by
  obtain ⟨stages, total⟩ := m
  unfold at? count
  induction stages with
  | nil => simp [addTo, at?.go, h]
  | cons entry rest ih =>
    obtain ⟨p, counters⟩ := entry
    rw [addTo]
    by_cases hlt : path < p
    · by_cases hother : other < path
      · simp [at?.go, hlt, hother, String.lt_trans hother hlt]
      · simp [at?.go, hlt, hother, h]
    · by_cases heq : path = p
      · subst heq
        simp [at?.go, h]
      · simp only [hlt, heq, ↓reduceIte, at?.go]
        simp only at ih
        rw [ih]

end Metrics

namespace World

variable {w : World} {path : String} {batch : Batch}

theorem offeredAt_perform_self :
    (w.perform (.offer path batch)).2.offeredAt path = batch :: w.offeredAt path := by
  simp [perform, offeredAt]

theorem offeredAt_perform_of_ne {other : String} (h : other ≠ path) :
    (w.perform (.offer path batch)).2.offeredAt other = w.offeredAt other := by
  rw [perform, offeredAt, List.find?_cons_of_neg (by simpa using h.symm), find?_filter_key h]
  rfl

theorem perform_ofPlugin {op : Op} (h : op.OfPlugin) :
    (w.perform op).2.offered = w.offered ∧ (w.perform op).2.metrics = w.metrics := by
  cases op with
  | offer => cases h
  | count => cases h
  | print text => exact ⟨rfl, rfl⟩
  | makeDirectories path => exact ⟨rfl, rfl⟩
  | note entry => exact ⟨rfl, rfl⟩
  | openFile | append =>
    rw [perform, World.append]
    split <;> exact ⟨rfl, rfl⟩

end World

namespace Cells

variable {T : Tenancy} {α : Type}

/-- A world in which each place has what there is to be at it. -/
structure Shows (σ : Cells T) (w : World) : Prop where
  offered : ∀ place, w.offeredAt place = (σ place).offered
  counters : ∀ place, w.metrics.at? place = (σ place).counters
  disk : T.Holds (fun place => (σ place).own) w.disk

variable {σ : Cells T} {w : World} {place : String} {op : Op} {a : op.Answer} {c : Cell T}

theorem own_update :
    (fun q => (Function.update σ place c q).own) =
      Function.update (fun q => (σ q).own) place c.own := by
  funext q
  by_cases hq : q = place
  · subst hq
    simp
  · simp [hq]

theorem Shows.update {w' : World} (h : Shows σ w)
    (offered : w'.offeredAt place = c.offered)
    (offered_ne : ∀ q ≠ place, w'.offeredAt q = w.offeredAt q)
    (counters : w'.metrics.at? place = c.counters)
    (counters_ne : ∀ q ≠ place, w'.metrics.at? q = w.metrics.at? q)
    (disk : T.Holds (Function.update (fun q => (σ q).own) place c.own) w'.disk) :
    Shows (Function.update σ place c) w' where
  offered q := by
    by_cases hq : q = place
    · subst hq
      rw [offered, Function.update_self]
    · rw [offered_ne q hq, h.offered, Function.update_of_ne hq]
  counters q := by
    by_cases hq : q = place
    · subst hq
      rw [counters, Function.update_self]
    · rw [counters_ne q hq, h.counters, Function.update_of_ne hq]
  disk := by rwa [own_update]

/-- The world answers an action as its place does, and shows what is there afterwards. -/
theorem Shows.perform (h : Shows σ w) (hstep : Step T place (σ place) op a c) :
    (w.perform op).1 = a ∧ Shows (Function.update σ place c) (w.perform op).2 := by
  have hsame : Function.update (fun q => (σ q).own) place (σ place).own = fun q => (σ q).own :=
    Function.update_eq_self place _
  cases hstep with
  | offer batch =>
    refine ⟨h.offered place, h.update ?_ (fun _ => World.offeredAt_perform_of_ne) ?_
      (fun _ _ => rfl) ?_⟩
    · rw [World.offeredAt_perform_self, h.offered]
    · exact h.counters place
    · rw [hsame]
      exact h.disk
  | count stage o =>
    refine ⟨rfl, h.update ?_ (fun _ _ => rfl) ?_ (fun _ => Metrics.at?_count_of_ne) ?_⟩
    · exact h.offered place
    · rw [← h.counters]
      exact Metrics.at?_count_self
    · rw [hsame]
      exact h.disk
  | plugin hop hanswer =>
    obtain ⟨hanswer, hdisk⟩ := T.sound hop h.disk hanswer
    obtain ⟨hoffered, hmetrics⟩ := World.perform_ofPlugin (w := w) hop
    refine ⟨hanswer, h.update ?_ (fun q _ => ?_) ?_ (fun q _ => ?_) hdisk⟩
    · rw [World.offeredAt, hoffered]
      exact h.offered place
    · rw [World.offeredAt, hoffered]
      rfl
    · rw [hmetrics]
      exact h.counters place
    · rw [hmetrics]

theorem Alone.run {P : Set String} {p : Activity α} {r : Option (α × Cells T)}
    (h : Alone T P p σ r) (hw : Shows σ w) :
    (r = none ∧ p.run w = none) ∨
      ∃ a τ w', r = some (a, τ) ∧ p.run w = some (a, w') ∧ Shows τ w' := by
  induction h generalizing w with
  | done a σ => exact .inr ⟨a, σ, w, rfl, rfl, hw⟩
  | stall σ => exact .inl ⟨rfl, rfl⟩
  | sleep h ih => exact ih ⟨hw.offered, hw.counters, hw.disk⟩
  | act hplace hstep h ih =>
    obtain ⟨hanswer, hshows⟩ := hw.perform hstep
    rw [Activity.run, hanswer]
    exact ih hshows

end Cells

/-- Two ends of a run that differ at no place, or both none: the same result, the same batches
offered and the same counters. -/
inductive SameEnd {α : Type} : Option (α × World) → Option (α × World) → Prop where
  | endless : SameEnd none none
  | ended {a w w'} (offered : w.offeredAt = w'.offeredAt)
      (counters : w.metrics.at? = w'.metrics.at?) :
      SameEnd (some (a, w)) (some (a, w'))

namespace SameEnd

variable {α : Type} {e e' e'' : Option (α × World)}

theorem symm (h : SameEnd e e') : SameEnd e' e := by
  cases h with
  | endless => exact .endless
  | ended offered counters => exact .ended offered.symm counters.symm

theorem trans (h : SameEnd e e') (h' : SameEnd e' e'') : SameEnd e e'' := by
  cases h with
  | endless => exact h'
  | ended offered counters =>
    cases h' with
    | ended offered' counters' =>
      exact .ended (offered.trans offered') (counters.trans counters')

end SameEnd

end DataPipeline
