import DataPipeline.Proofs.Node.Bound
import DataPipeline.Proofs.Node.Place
import Mathlib.Algebra.BigOperators.Ring.List
import Mathlib.Algebra.Ring.Nat

namespace DataPipeline

theorem Outcome.isSuccess_iff_children {o : Outcome} (h : ¬o.IsLeaf)
    (hparts : ∀ q : Outcome, q.PartOf o → q.Consistent) :
    o.isSuccess = true ↔ ∀ c ∈ o.children, c.isSuccess = true := by
  have hchild :
      ∀ c ∈ o.children, (c.isSuccess = true ↔ ∀ leaf ∈ c.leaves, leaf.errors = []) := by
    intro c hc
    apply isSuccess_iff
    intro q hq
    exact hparts q (.inside hc hq)
  rw [isSuccess_iff hparts, leaves_of_not_isLeaf h]
  simp only [List.mem_flatMap]
  constructor
  · intro hall c hc
    exact (hchild c hc).2 fun leaf hleaf => hall leaf ⟨c, hc, hleaf⟩
  · rintro hall leaf ⟨c, hc, hleaf⟩
    exact (hchild c hc).1 (hall c hc) leaf hleaf

namespace Node

mutual

/-- The stages of a tree, each with how often it is run. -/
def runs : Node → List (Stage × Nat)
  | stage s => [(s, 1)]
  | synchronizer children _ => runsOf children
  | wrap w child => child.runs.map fun r => (r.1, w.times * r.2)
  | generator _ => []

def runsOf : List Node → List (Stage × Nat)
  | [] => []
  | n :: rest => n.runs ++ runsOf rest

end

mutual

/-- The stages of a tree, each with the results it has in an outcome of the tree. -/
def results : Node → Outcome → List (Stage × Outcome)
  | stage s, o => [(s, o)]
  | synchronizer children _, o => resultsOf children o.children
  | wrap w child, o =>
    if w.name = passthroughWrapper.name then child.results o
    else o.children.flatMap child.results
  | generator _, _ => []

def resultsOf : List Node → List Outcome → List (Stage × Outcome)
  | n :: rest, o :: os => n.results o ++ resultsOf rest os
  | _, _ => []

end

/-- The results of the stage at a place. -/
def resultsAt (n : Node) (o : Outcome) (p : NodePath) : List Outcome :=
  ((n.results o).filter (·.1.path = p)).map (·.2)

variable {registry : Registry} {path : NodePath} {n : Node} {o : Outcome}

theorem mem_resultsAt {p : NodePath} {q : Outcome} :
    q ∈ n.resultsAt o p ↔ ∃ s, s.path = p ∧ (s, q) ∈ n.results o := by
  simp [resultsAt, and_comm]

theorem runsOf_eq {nodes : List Node} : runsOf nodes = nodes.flatMap runs := by
  induction nodes with
  | nil => rfl
  | cons n nodes ih => rw [runsOf, ih, List.flatMap_cons]

mutual

theorem map_fst_runs : ∀ n : Node, n.runs.map (·.1) = n.stages
  | stage _ | generator _ => rfl
  | synchronizer children _ => map_fst_runsOf children
  | wrap w child => by
    rw [runs, stages, List.map_map, ← map_fst_runs child]
    rfl

theorem map_fst_runsOf : ∀ nodes : List Node, (runsOf nodes).map (·.1) = stagesOf nodes
  | [] => rfl
  | n :: rest => by
    rw [runsOf, stagesOf, List.map_append, map_fst_runs n, map_fst_runsOf rest]

end

theorem forall₂_of_getElem? {α β : Type} {R : α → β → Prop} {l : List α} {l' : List β}
    (hlen : l'.length = l.length)
    (h : ∀ (i : Nat) a b, l[i]? = some a → l'[i]? = some b → R a b) : List.Forall₂ R l l' := by
  rw [List.forall₂_iff_get]
  refine ⟨hlen.symm, fun i hi hi' => h i _ _ ?_ ?_⟩
  · exact List.getElem?_eq_getElem hi
  · exact List.getElem?_eq_getElem hi'

/-- How often the stages at a place are run. -/
def timesAt (runs : List (Stage × Nat)) (p : NodePath) : Nat :=
  ((runs.filter (·.1.path = p)).map (·.2)).sum

theorem timesAt_append {runs runs' : List (Stage × Nat)} {p : NodePath} :
    timesAt (runs ++ runs') p = timesAt runs p + timesAt runs' p := by
  simp [timesAt]

theorem timesAt_mul {runs : List (Stage × Nat)} {p : NodePath} {times : Nat} :
    timesAt (runs.map fun r => (r.1, times * r.2)) p = times * timesAt runs p := by
  rw [timesAt, timesAt, ← List.sum_map_mul_left, List.filter_map, List.map_map]
  rfl

theorem length_resultsOf {p : NodePath} {children : List Node} {os : List Outcome}
    (h : List.Forall₂ (fun n o => (n.resultsAt o p).length = timesAt n.runs p) children os) :
    ((resultsOf children os).filter (·.1.path = p)).length = timesAt (runsOf children) p := by
  induction h with
  | nil => rfl
  | cons hn h ih =>
    rw [resultsAt, List.length_map] at hn
    rw [resultsOf, runsOf, List.filter_append, List.length_append, timesAt_append, hn, ih]

theorem length_flatMap_results {p : NodePath} {os : List Outcome}
    (h : ∀ o ∈ os, (n.resultsAt o p).length = timesAt n.runs p) :
    ((os.flatMap n.results).filter (·.1.path = p)).length = os.length * timesAt n.runs p := by
  induction os with
  | nil => simp
  | cons o os ih =>
    rw [List.forall_mem_cons, resultsAt, List.length_map] at h
    rw [List.flatMap_cons, List.filter_append, List.length_append, h.1, ih h.2,
      List.length_cons, Nat.succ_mul, Nat.add_comm]

theorem results_repeated {times : Nat} :
    (wrap (repeatWrapper times) n).results o = o.children.flatMap n.results := by
  have hname : (repeatWrapper times).name ≠ passthroughWrapper.name :=
    fun h => absurd (show "repeat" = "passthrough" from h) (by decide)
  rw [results, if_neg hname]

theorem Reports.length_resultsAt (h : n.Reports o) (p : NodePath) :
    (n.resultsAt o p).length = timesAt n.runs p := by
  induction h with
  | @stage s o hd hc =>
    by_cases hp : s.path = p
    · simp [resultsAt, results, runs, timesAt, hp]
    · simp [resultsAt, results, runs, timesAt, hp]
  | generator => rfl
  | synchronizer hd hlen h ih =>
    rw [resultsAt, List.length_map]
    exact length_resultsOf (forall₂_of_getElem? hlen ih)
  | @passthrough n o h ih =>
    rw [runs, timesAt_mul, times_passthroughWrapper, Nat.one_mul]
    exact ih
  | @repeated times n o hd hlen h ih =>
    rw [runs, timesAt_mul, times_repeatWrapper, ← hlen, resultsAt, List.length_map,
      results_repeated]
    exact length_flatMap_results ih

theorem isSuccess_resultsOf {children : List Node} {os : List Outcome}
    (h : List.Forall₂ (fun n o => o.isSuccess = true ↔ ∀ r ∈ n.results o, r.2.isSuccess = true)
      children os) :
    (∀ o ∈ os, o.isSuccess = true) ↔ ∀ r ∈ resultsOf children os, r.2.isSuccess = true := by
  induction h with
  | nil => simp [resultsOf]
  | cons hn h ih => rw [resultsOf, List.forall_mem_cons, List.forall_mem_append, hn, ih]

/-- A run succeeds if each result of a stage is a success. -/
theorem Reports.isSuccess_iff (h : n.Reports o)
    (hparts : ∀ q : Outcome, q.PartOf o → q.Consistent) :
    o.isSuccess = true ↔ ∀ r ∈ n.results o, r.2.isSuccess = true := by
  induction h with
  | stage => simp [results]
  | generator _ _ hsuccess => simp [results, hsuccess]
  | @synchronizer children fan o hd hlen h ih =>
    have hinner : ¬o.IsLeaf := by simp [Outcome.IsLeaf, hd, descriptor, kind]
    rw [Outcome.isSuccess_iff_children hinner hparts]
    apply isSuccess_resultsOf
    apply forall₂_of_getElem? hlen
    intro i n q hn hq
    apply ih i n q hn hq
    intro part hpart
    exact hparts part (.inside (List.mem_of_getElem? hq) hpart)
  | @passthrough n o h ih => exact ih hparts
  | @repeated times n o hd hlen h ih =>
    have hinner : ¬o.IsLeaf := by simp [Outcome.IsLeaf, hd]
    rw [Outcome.isSuccess_iff_children hinner hparts, results_repeated]
    have hchild : ∀ q ∈ o.children,
        (q.isSuccess = true ↔ ∀ r ∈ n.results q, r.2.isSuccess = true) := by
      intro q hq
      apply ih q hq
      intro part hpart
      exact hparts part (.inside hq hpart)
    simp only [List.mem_flatMap]
    constructor
    · rintro hall r ⟨q, hq, hr⟩
      exact (hchild q hq).1 (hall q hq) r hr
    · intro hall q hq
      exact (hchild q hq).2 fun r hr => hall r ⟨q, hq, hr⟩

/-- The stages of a tree are at places inside its own, no two at the same. -/
theorem BuiltAt.nodup_places (h : n.BuiltAt registry path) :
    (∀ s ∈ n.stages, s.path.text ∈ path.under) ∧ (n.stages.map (·.path.text)).Nodup := by
  induction h with
  | stage hg hd =>
    refine ⟨fun s hs => ?_, List.nodup_singleton _⟩
    cases List.mem_singleton.1 hs
    exact NodePath.text_mem_under _
  | @synchronizer path children fan hlimit hchildren ih =>
    rw [stages, stagesOf_eq]
    constructor
    · intro s hs
      obtain ⟨l, hl, hs⟩ := List.mem_flatten.1 hs
      obtain ⟨c, hc, rfl⟩ := List.mem_map.1 hl
      obtain ⟨i, hi⟩ := List.mem_iff_getElem?.1 hc
      exact NodePath.under_hop_subset _ _ ((ih i c hi).1 s hs)
    · rw [List.map_flatten, List.map_map, List.nodup_flatten, List.forall_mem_map,
        List.pairwise_map, List.pairwise_iff_getElem]
      constructor
      · intro c hc
        obtain ⟨i, hi⟩ := List.mem_iff_getElem?.1 hc
        exact (ih i c hi).2
      · intro i j hi hj hlt place hplace hplace'
        obtain ⟨s, hs, rfl⟩ := List.mem_map.1 hplace
        obtain ⟨s', hs', heq⟩ := List.mem_map.1 hplace'
        have hin := (ih i _ (List.getElem?_eq_getElem hi)).1 s hs
        have hin' := (ih j _ (List.getElem?_eq_getElem hj)).1 s' hs'
        have hne : Hop.children i ≠ Hop.children j := by simp [Nat.ne_of_lt hlt]
        exact Set.disjoint_left.1 (NodePath.disjoint_under hne) hin (heq ▸ hin')
  | wrap hw hchild ih =>
    refine ⟨fun s hs => ?_, ih.2⟩
    exact NodePath.under_hop_subset _ _ (ih.1 s hs)
  | generator hg => exact ⟨nofun, List.nodup_nil⟩

theorem timesAt_of_mem {runs : List (Stage × Nat)} (h : (runs.map (·.1.path)).Nodup)
    {r : Stage × Nat} (hr : r ∈ runs) : timesAt runs r.1.path = r.2 := by
  induction runs with
  | nil => cases hr
  | cons first rest ih =>
    rw [List.map_cons, List.nodup_cons] at h
    rcases List.mem_cons.1 hr with rfl | hr
    · have hnone : rest.filter (·.1.path = r.1.path) = [] := by
        rw [List.filter_eq_nil_iff]
        intro r' hr' heq
        exact h.1 (List.mem_map.2 ⟨r', hr', of_decide_eq_true heq⟩)
      simp [timesAt, hnone]
    · have hne : first.1.path ≠ r.1.path := fun heq => h.1 (heq ▸ List.mem_map_of_mem hr)
      rw [timesAt, List.filter_cons_of_neg (by simpa using hne)]
      exact ih h.2 hr

mutual

theorem mem_stages_of_results :
    ∀ (n : Node) (o : Outcome) (r : Stage × Outcome), r ∈ n.results o → r.1 ∈ n.stages
  | stage s, o, r, hr => by
    cases List.mem_singleton.1 hr
    exact List.mem_singleton_self s
  | synchronizer children _, o, r, hr => mem_stagesOf_of_results children o.children r hr
  | wrap w child, o, r, hr => by
    rw [results] at hr
    split at hr
    · exact mem_stages_of_results child o r hr
    · obtain ⟨q, _, hr⟩ := List.mem_flatMap.1 hr
      exact mem_stages_of_results child q r hr
  | generator _, _, _, hr => nomatch hr

theorem mem_stagesOf_of_results :
    ∀ (nodes : List Node) (os : List Outcome) (r : Stage × Outcome),
      r ∈ resultsOf nodes os → r.1 ∈ stagesOf nodes
  | [], _, _, hr => nomatch hr
  | _ :: _, [], _, hr => nomatch hr
  | n :: rest, o :: os, r, hr => by
    rcases List.mem_append.1 hr with hr | hr
    · exact List.mem_append_left _ (mem_stages_of_results n o r hr)
    · exact List.mem_append_right _ (mem_stagesOf_of_results rest os r hr)

end

/-- Each stage is run. -/
theorem Shaped.runs_pos (h : n.Shaped) : ∀ r ∈ n.runs, 0 < r.2 := by
  induction h with
  | stage s =>
    intro r hr
    cases List.mem_singleton.1 hr
    exact Nat.one_pos
  | synchronizer hlimit hchildren ih =>
    intro r hr
    rw [runs, runsOf_eq] at hr
    obtain ⟨c, hc, hr⟩ := List.mem_flatMap.1 hr
    exact ih c hc r hr
  | passthrough hchild ih =>
    intro r hr
    obtain ⟨r', hr', rfl⟩ := List.mem_map.1 hr
    exact Nat.mul_pos Nat.one_pos (ih r' hr')
  | repeated htimes hchild ih =>
    intro r hr
    obtain ⟨r', hr', rfl⟩ := List.mem_map.1 hr
    rw [times_repeatWrapper]
    exact Nat.mul_pos htimes (ih r' hr')
  | generator g => nofun

end Node

end DataPipeline
