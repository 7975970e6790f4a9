import DataPipeline.Proofs.Run.Counters
import DataPipeline.Proofs.Run.Lockstep

namespace DataPipeline

/-- An action at the place that its own has moved to. -/
def Op.moved (move : String → String) : Op → Op
  | .offer path batch => .offer (move path) batch
  | .count path stage o => .count (move path) stage o
  | .print text => .print text
  | .makeDirectories path => .makeDirectories path
  | .openFile path => .openFile path
  | .append path text => .append path text
  | .note entry => .note entry

/-- Actions that differ in their places only. -/
inductive Op.Moves (move : String → String) : Op.Pairing where
  | offer (path : String) (batch : Batch) :
      Moves move (.offer path batch) (.offer (move path) batch) Eq
  | count (path stage : String) (o : Occurrence) :
      Moves move (.count path stage o) (.count (move path) stage o) Eq
  | plugin {op : Op} (h : op.OfPlugin) : Moves move op op Eq

/-- Activities that act, sleep and end together, each action at the place that its own has moved
to. -/
abbrev Activity.Moved (move : String → String) {α : Type} (p q : Activity α) : Prop :=
  Activity.InStep (Op.Moves move) Eq p q

/-- Worlds in which the batches and counters of each place are at the place that it has moved
to. -/
structure World.Moved (move : String → String) (w w' : World) : Prop where
  rest : w' = { w with offered := w'.offered, metrics := w'.metrics }
  offered : w'.offered = w.offered.map (Prod.map move id)
  counters : w'.metrics.stages.Perm (w.metrics.stages.map (Prod.map move id))
  total : w'.metrics.totalDurationMs = w.metrics.totalDurationMs
  ascending : Metrics.Ascending w.metrics.stages
  ascending' : Metrics.Ascending w'.metrics.stages

variable {move : String → String}

theorem Op.Moves.eq_moved {op op' : Op} {Answers : op.Answer → op'.Answer → Prop}
    (h : Op.Moves move op op' Answers) : op' = op.moved move := by
  cases h with
  | offer | count => rfl
  | plugin h =>
    cases op with
    | offer | count => cases h
    | print | makeDirectories | openFile | append | note => rfl

namespace Metrics

variable {m m' : Metrics} {path stage : String} {o : Occurrence} {e : String × StageMetrics}

theorem mem_count (h : Ascending m.stages) : e ∈ (m.count path stage o).stages ↔
    if e.1 = path then e.2 = ((m.at? path).getD { stage }).add o else e ∈ m.stages := by
  obtain ⟨p, c⟩ := e
  have hcount : Ascending (m.count path stage o).stages := h.addTo
  rw [← at?_eq_some hcount]
  split
  next heq =>
    subst heq
    rw [at?_count_self, Option.some.injEq, eq_comm]
  next hne => rw [at?_count_of_ne hne, at?_eq_some h]

theorem Ascending.nodup_map (h : Ascending m.stages) (hmove : move.Injective) :
    (m.stages.map (Prod.map move id)).Nodup := by
  apply List.Nodup.map (hmove.prodMap Function.injective_id)
  exact .of_map Prod.fst h.nodup

theorem mem_map_move (hmove : move.Injective) {c : StageMetrics} :
    (move path, c) ∈ m.stages.map (Prod.map move id) ↔ (path, c) ∈ m.stages := by
  rw [List.mem_map]
  constructor
  · rintro ⟨⟨p, c'⟩, hmem, heq⟩
    obtain ⟨hp, rfl⟩ := Prod.mk.inj heq
    cases hmove hp
    exact hmem
  · intro hmem
    exact ⟨_, hmem, rfl⟩

theorem at?_of_perm (hmove : move.Injective)
    (h : m'.stages.Perm (m.stages.map (Prod.map move id))) (hm : Ascending m.stages)
    (hm' : Ascending m'.stages) : m'.at? (move path) = m.at? path := by
  apply Option.ext
  intro c
  rw [at?_eq_some hm', at?_eq_some hm, h.mem_iff, mem_map_move hmove]

theorem count_perm (hmove : move.Injective)
    (h : m'.stages.Perm (m.stages.map (Prod.map move id))) (hm : Ascending m.stages)
    (hm' : Ascending m'.stages) :
    (m'.count (move path) stage o).stages.Perm
      ((m.count path stage o).stages.map (Prod.map move id)) := by
  have hcount : Ascending (m.count path stage o).stages := hm.addTo
  have hcount' : Ascending (m'.count (move path) stage o).stages := hm'.addTo
  rw [List.perm_ext_iff_of_nodup (.of_map Prod.fst hcount'.nodup) (hcount.nodup_map hmove)]
  rintro ⟨p, c⟩
  rw [mem_count hm', at?_of_perm hmove h hm hm', h.mem_iff]
  dsimp only
  split
  next heq =>
    subst heq
    rw [mem_map_move hmove, mem_count hm, if_pos rfl]
  next hne =>
    rw [List.mem_map, List.mem_map]
    apply exists_congr
    rintro ⟨q, c'⟩
    apply and_congr_left
    intro heq
    have hq : q ≠ path := by
      rintro rfl
      exact hne (Prod.mk.inj heq).1.symm
    rw [mem_count hm, if_neg hq]

end Metrics

namespace World

variable {w w' : World} {path : String}

theorem moved_of_fresh (hoffered : w.offered = []) (hcounters : w.metrics.stages = []) :
    w.Moved move w where
  rest := rfl
  offered := by rw [hoffered, List.map_nil]
  counters := by rw [hcounters, List.map_nil]
  total := rfl
  ascending := by
    rw [hcounters]
    exact List.Pairwise.nil
  ascending' := by
    rw [hcounters]
    exact List.Pairwise.nil

theorem Moved.now_eq (h : w.Moved move w') : w'.now = w.now := by
  rw [h.rest]

theorem Moved.sleep (h : w.Moved move w') (ms : Nat) :
    World.Moved move { w with now := w.now + ms } { w' with now := w'.now + ms } where
  rest := by
    dsimp only
    rw [h.rest]
  offered := h.offered
  counters := h.counters
  total := h.total
  ascending := h.ascending
  ascending' := h.ascending'

theorem Moved.offeredAt (hmove : move.Injective) (h : w.Moved move w') :
    w'.offeredAt (move path) = w.offeredAt path := by
  rw [World.offeredAt, World.offeredAt, h.offered, List.find?_map, Option.map_map]
  have hsame : (fun e : String × List Batch => decide (e.1 = path)) =
      (fun e => decide (e.1 = move path)) ∘ Prod.map move id := by
    funext e
    simp [hmove.eq_iff]
  rw [hsame]
  rfl

theorem Moved.perform_offer (hmove : move.Injective) (h : w.Moved move w') (batch : Batch) :
    (w.perform (.offer path batch)).2.Moved move (w'.perform (.offer (move path) batch)).2 where
  rest := by
    rw [h.rest]
    rfl
  offered := by
    change (move path, batch :: w'.offeredAt (move path)) ::
      w'.offered.filter (·.1 ≠ move path) =
      ((path, batch :: w.offeredAt path) :: w.offered.filter (·.1 ≠ path)).map
        (Prod.map move id)
    rw [h.offeredAt hmove, h.offered, List.filter_map, List.map_cons]
    have hsame : (fun e : String × List Batch => decide (e.1 ≠ path)) =
        (fun e => decide (e.1 ≠ move path)) ∘ Prod.map move id := by
      funext e
      simp [hmove.eq_iff]
    rw [hsame]
    rfl
  counters := h.counters
  total := h.total
  ascending := h.ascending
  ascending' := h.ascending'

theorem Moved.perform_count (hmove : move.Injective) (h : w.Moved move w') (stage : String)
    (o : Occurrence) :
    (w.perform (.count path stage o)).2.Moved move
      (w'.perform (.count (move path) stage o)).2 where
  rest := by
    rw [h.rest]
    rfl
  offered := h.offered
  counters := Metrics.count_perm hmove h.counters h.ascending h.ascending'
  total := h.total
  ascending := h.ascending.addTo
  ascending' := h.ascending'.addTo

theorem Moved.perform_plugin {op : Op} (h : w.Moved move w') (hop : op.OfPlugin) :
    (w.perform op).1 = (w'.perform op).1 ∧ (w.perform op).2.Moved move (w'.perform op).2 := by
  obtain ⟨hoffered, hmetrics⟩ := perform_ofPlugin (w := w) hop
  obtain ⟨hoffered', hmetrics'⟩ := perform_ofPlugin (w := w') hop
  -- a plugin looks neither at what was offered nor at the counters
  have hrest : (w.perform op).1 = (w'.perform op).1 ∧ (w'.perform op).2 =
      { (w.perform op).2 with offered := w'.offered, metrics := w'.metrics } := by
    rw [h.rest]
    cases op with
    | offer | count => cases hop
    | print | makeDirectories | note => exact ⟨rfl, rfl⟩
    | openFile | append =>
      rw [World.perform, World.perform, World.append, World.append]
      dsimp only
      cases w.disk.append _ _ <;> exact ⟨rfl, rfl⟩
  refine ⟨hrest.1, ?_, ?_, ?_, ?_, ?_, ?_⟩
  · rw [hrest.2]
  · rw [hoffered', hoffered, h.offered]
  · rw [hmetrics', hmetrics]
    exact h.counters
  · rw [hmetrics', hmetrics, h.total]
  · rw [hmetrics]
    exact h.ascending
  · rw [hmetrics']
    exact h.ascending'

theorem Moved.perform {op op' : Op} {Answers : op.Answer → op'.Answer → Prop}
    (hmove : move.Injective) (h : w.Moved move w') (hop : Op.Moves move op op' Answers) :
    Answers (w.perform op).1 (w'.perform op').1 ∧
    (w.perform op).2.Moved move (w'.perform op').2 := by
  cases hop with
  | offer path batch => exact ⟨(h.offeredAt hmove).symm, h.perform_offer hmove batch⟩
  | count path stage o => exact ⟨rfl, h.perform_count hmove stage o⟩
  | plugin hop => exact h.perform_plugin hop

end World

namespace Activity

variable {α : Type} {p q : Activity α} {w w' : World}

theorem InStep.run_moved (hmove : move.Injective) (h : p.Moved move q) (hw : w.Moved move w') :
    Option.Rel (fun e e' => e.1 = e'.1 ∧ e.2.Moved move e'.2) (p.run w) (q.run w') := by
  induction h generalizing w w' with
  | done h => exact .some ⟨h, hw⟩
  | act hop h ih =>
    obtain ⟨hanswer, hnext⟩ := hw.perform hmove hop
    exact ih _ _ hanswer hnext
  | sleep ms h ih => exact ih (hw.sleep ms)
  | stall => exact .none

theorem InStep.timeline_moved (hmove : move.Injective) (h : p.Moved move q)
    (hw : w.Moved move w') :
    q.timeline w' = (p.timeline w).map (Prod.map id (Op.moved move)) := by
  induction h generalizing w w' with
  | done h => rfl
  | act hop h ih =>
    obtain ⟨hanswer, hnext⟩ := hw.perform hmove hop
    rw [Activity.timeline, Activity.timeline, List.map_cons, ih _ _ hanswer hnext, hop.eq_moved,
      hw.now_eq]
    rfl
  | sleep ms h ih => exact ih (hw.sleep ms)
  | stall => rfl

end Activity

end DataPipeline
