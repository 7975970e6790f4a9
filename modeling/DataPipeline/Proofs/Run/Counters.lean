import DataPipeline.Proofs.Run.Timeline
import DataPipeline.Proofs.Run.World
import Mathlib.Algebra.Ring.Nat

namespace DataPipeline

namespace Metrics

/-- The places of a table stand in ascending order. -/
def Ascending (entries : List (String × StageMetrics)) : Prop :=
  (entries.map (·.1)).Pairwise (· < ·)

variable {m : Metrics} {path stage : String} {o : Occurrence} {c : StageMetrics}
  {entries : List (String × StageMetrics)} {e : String × StageMetrics}

theorem ascending_cons :
    Ascending (e :: entries) ↔ (∀ e' ∈ entries, e.1 < e'.1) ∧ Ascending entries := by
  rw [Ascending, List.map_cons, List.pairwise_cons, List.forall_mem_map, Ascending]

theorem Ascending.nodup (h : Ascending entries) : (entries.map (·.1)).Nodup := by
  apply List.Pairwise.imp _ h
  rintro p _ hlt rfl
  exact String.lt_irrefl p hlt

theorem mem_addTo (h : e ∈ addTo path stage o entries) : e.1 = path ∨ e ∈ entries := by
  induction entries with
  | nil =>
    cases List.mem_singleton.1 h
    exact .inl rfl
  | cons first rest ih =>
    obtain ⟨p, counters⟩ := first
    rw [addTo] at h
    split at h
    · rcases List.mem_cons.1 h with rfl | h
      · exact .inl rfl
      · exact .inr h
    · split at h
      next heq =>
        rcases List.mem_cons.1 h with rfl | h
        · exact .inl heq.symm
        · exact .inr (List.mem_cons_of_mem _ h)
      · rcases List.mem_cons.1 h with rfl | h
        · exact .inr List.mem_cons_self
        · exact (ih h).imp_right (List.mem_cons_of_mem _)

theorem lt_of_not_lt_of_ne {p : String} (hlt : ¬path < p) (hne : path ≠ p) : p < path := by
  by_contra h
  exact hne (String.le_antisymm (String.not_lt.1 h) (String.not_lt.1 hlt))

theorem Ascending.addTo (h : Ascending entries) : Ascending (addTo path stage o entries) := by
  induction entries with
  | nil => exact List.pairwise_singleton _ _
  | cons first rest ih =>
    obtain ⟨p, counters⟩ := first
    have hfirst := ascending_cons.1 h
    rw [Metrics.addTo]
    split
    next hlt =>
      rw [ascending_cons]
      refine ⟨fun e he => ?_, h⟩
      rcases List.mem_cons.1 he with rfl | he
      · exact hlt
      · exact String.lt_trans hlt (hfirst.1 e he)
    next hlt =>
      split
      · exact ascending_cons.2 hfirst
      next hne =>
        rw [ascending_cons]
        refine ⟨fun e he => ?_, ih hfirst.2⟩
        rcases mem_addTo he with rfl | he
        · exact lt_of_not_lt_of_ne hlt hne
        · exact hfirst.1 e he

/-- What is found for a place is what stands at it. -/
theorem at?_eq_some (h : Ascending m.stages) : m.at? path = some c ↔ (path, c) ∈ m.stages := by
  obtain ⟨entries, total⟩ := m
  unfold at?
  dsimp only at *
  induction entries with
  | nil => simp [at?.go]
  | cons first rest ih =>
    obtain ⟨p, counters⟩ := first
    obtain ⟨hfirst, hrest⟩ := ascending_cons.1 h
    have hne (hle : ¬p < path) : (path, c) ∉ rest := fun hmem => hle (hfirst _ hmem)
    rw [at?.go, List.mem_cons]
    split
    next hlt =>
      have hnot : ¬p < path := fun h => String.lt_irrefl p (String.lt_trans h hlt)
      have hp : path ≠ p := by
        rintro rfl
        exact hnot hlt
      simp [hne hnot, hp]
    next hlt =>
      split
      next heq =>
        subst heq
        simp [hne (String.lt_irrefl path), eq_comm]
      next hp => simp [ih hrest, hp]

end Metrics

namespace Op

/-- The name and the occurrence that an action counts at a place. -/
def counted? (place : String) : Op → Option (String × Occurrence)
  | .count path stage o => if path = place then some (stage, o) else none
  | .offer .. | .print _ | .makeDirectories _ | .openFile _ | .append .. | .note _ => none

/-- The batch that an action offers at a place. -/
def offered? (place : String) : Op → Option Batch
  | .offer path batch => if path = place then some batch else none
  | .count .. | .print _ | .makeDirectories _ | .openFile _ | .append .. | .note _ => none

variable {op : Op}

theorem OfPlugin.counted? (h : op.OfPlugin) (place : String) : op.counted? place = none := by
  cases op with
  | offer | count => cases h
  | print | makeDirectories | openFile | append | note => rfl

theorem OfPlugin.offered? (h : op.OfPlugin) (place : String) : op.offered? place = none := by
  cases op with
  | offer | count => cases h
  | print | makeDirectories | openFile | append | note => rfl

end Op

/-- The counters of a place when something was counted there. -/
def recount (c? : Option StageMetrics) (x : String × Occurrence) : Option StageMetrics :=
  some ((c?.getD { stage := x.1 }).add x.2)

/-- Counters to which occurrences were added. -/
def StageMetrics.addAll (m : StageMetrics) (os : List Occurrence) : StageMetrics :=
  os.foldl StageMetrics.add m

theorem StageMetrics.stage_addAll {m : StageMetrics} {os : List Occurrence} :
    (m.addAll os).stage = m.stage := by
  induction os generalizing m with
  | nil => rfl
  | cons o os ih =>
    have hadd : (m.add o).stage = m.stage := by cases o <;> rfl
    exact Eq.trans ih hadd

theorem StageMetrics.weight_addAll {counter : StageMetrics → Nat} {weight : Occurrence → Nat}
    (h : ∀ m o, counter (m.add o) = counter m + weight o) (m : StageMetrics)
    (os : List Occurrence) :
    counter (m.addAll os) = counter m + (os.map weight).sum := by
  induction os generalizing m with
  | nil => rfl
  | cons o os ih =>
    have hrest : counter (m.addAll (o :: os)) = counter (m.add o) + (os.map weight).sum :=
      ih (m.add o)
    rw [hrest, h, List.map_cons, List.sum_cons, Nat.add_assoc]

theorem foldl_recount {name : String} {os : List Occurrence} (h : os ≠ []) :
    (os.map (name, ·)).foldl recount none =
      some (StageMetrics.addAll { stage := name } os) := by
  have hsome (m : StageMetrics) (os : List Occurrence) :
      (os.map (name, ·)).foldl recount (some m) = some (m.addAll os) := by
    induction os generalizing m with
    | nil => rfl
    | cons o os ih => exact ih (m.add o)
  cases os with
  | nil => exact absurd rfl h
  | cons o os => exact hsome _ os

theorem getD_foldl_recount {counter : StageMetrics → Nat} {weight : Occurrence → Nat}
    (hadd : ∀ m o, counter (m.add o) = counter m + weight o)
    (hstart : ∀ name, counter { stage := name } = 0) (c? : Option StageMetrics)
    (xs : List (String × Occurrence)) :
    ((xs.foldl recount c?).map counter).getD 0 =
      (c?.map counter).getD 0 + (xs.map fun x => weight x.2).sum := by
  induction xs generalizing c? with
  | nil => rfl
  | cons x xs ih =>
    have hx : ((recount c? x).map counter).getD 0 = (c?.map counter).getD 0 + weight x.2 := by
      cases c? with
      | none =>
        have hone : counter (StageMetrics.add { stage := x.1 } x.2) = 0 + weight x.2 := by
          rw [hadd, hstart]
        exact hone
      | some m => exact hadd m x.2
    rw [List.foldl_cons, ih, hx, List.map_cons, List.sum_cons, Nat.add_assoc]

namespace World

/-- What a counter of a place stands at; where nothing was counted it stands at nothing. -/
def tally (w : World) (place : String) (counter : StageMetrics → Nat) : Nat :=
  ((w.metrics.at? place).map counter).getD 0

variable {w : World} {op : Op} {place : String}

theorem at?_perform : (w.perform op).2.metrics.at? place =
    (op.counted? place).toList.foldl recount (w.metrics.at? place) := by
  by_cases hop : op.OfPlugin
  · rw [(perform_ofPlugin hop).2, hop.counted?]
    rfl
  cases op with
  | offer => rfl
  | count path stage o =>
    rw [Op.counted?]
    split
    next heq =>
      subst heq
      exact Metrics.at?_count_self
    next hne => exact Metrics.at?_count_of_ne (Ne.symm hne)
  | print | makeDirectories | openFile | append | note => exact absurd trivial hop

theorem tally_count {counter : StageMetrics → Nat} {weight : Occurrence → Nat}
    (hadd : ∀ m o, counter (m.add o) = counter m + weight o)
    (hstart : ∀ name, counter { stage := name } = 0) {name : String} {o : Occurrence} :
    (w.perform (.count place name o)).2.tally place counter =
      w.tally place counter + weight o := by
  rw [tally, at?_perform, Op.counted?, if_pos rfl, getD_foldl_recount hadd hstart]
  rfl

theorem offeredAt_perform : (w.perform op).2.offeredAt place =
    (op.offered? place).toList ++ w.offeredAt place := by
  by_cases hop : op.OfPlugin
  · rw [offeredAt, (perform_ofPlugin hop).1, hop.offered?]
    rfl
  cases op with
  | offer path batch =>
    rw [Op.offered?]
    split
    next heq =>
      subst heq
      exact offeredAt_perform_self
    next hne => exact offeredAt_perform_of_ne (Ne.symm hne)
  | count => rfl
  | print | makeDirectories | openFile | append | note => exact absurd trivial hop

theorem ascending_perform (h : Metrics.Ascending w.metrics.stages) :
    Metrics.Ascending (w.perform op).2.metrics.stages := by
  by_cases hop : op.OfPlugin
  · rwa [(perform_ofPlugin hop).2]
  cases op with
  | offer => exact h
  | count path stage o => exact h.addTo
  | print | makeDirectories | openFile | append | note => exact absurd trivial hop

end World

namespace Activity

variable {α : Type} {p : Activity α} {a : α} {w w' : World}

theorem at?_run (h : p.run w = some (a, w')) (place : String) : w'.metrics.at? place =
    ((p.actions w).filterMap (Op.counted? place)).foldl recount (w.metrics.at? place) := by
  induction p generalizing w with
  | done a =>
    cases h
    rfl
  | act op next ih =>
    have h := ih _ h
    rw [World.at?_perform] at h
    rw [h, actions_act, List.filterMap_cons]
    cases op.counted? place with
    | none => rfl
    | some x => rfl
  | sleep ms next ih => exact ih h
  | stall => cases h

theorem offeredAt_run (h : p.run w = some (a, w')) (place : String) : w'.offeredAt place =
    ((p.actions w).filterMap (Op.offered? place)).reverse ++ w.offeredAt place := by
  induction p generalizing w with
  | done a =>
    cases h
    rfl
  | act op next ih =>
    have h := ih _ h
    rw [World.offeredAt_perform] at h
    rw [h, actions_act, List.filterMap_cons]
    cases op.offered? place with
    | none => rfl
    | some batch =>
      rw [List.reverse_cons, List.append_assoc]
      rfl
  | sleep ms next ih => exact ih h
  | stall => cases h

theorem ascending_run (h : p.run w = some (a, w')) (hw : Metrics.Ascending w.metrics.stages) :
    Metrics.Ascending w'.metrics.stages := by
  induction p generalizing w with
  | done a =>
    cases h
    exact hw
  | act op next ih => exact ih _ h (World.ascending_perform hw)
  | sleep ms next ih => exact ih h hw
  | stall => cases h

end Activity

end DataPipeline
