import DataPipeline.Proofs.Node.Bound

namespace DataPipeline

namespace Node

/-- A step from a node of a tree to one inside it: to a child of a synchronizer, through a
wrapper that runs its child as it is, or into what a wrapper repeats. -/
inductive Descent where
  | child (i : Nat)
  | through
  | round (times : Nat)

/-- A node of a tree and the steps that lead to it from the root. -/
structure Place where
  node : Node
  steps : List Descent

/-- How often each repeat around a place repeats, the outermost first. -/
def Place.times (p : Place) : List Nat :=
  p.steps.filterMap fun
    | .round times => some times
    | .child _ | .through => none

def Place.under (d : Descent) (p : Place) : Place := { p with steps := d :: p.steps }

def Place.isStage (p : Place) : Bool := p.node.kind = .stage

mutual

/-- All places of a tree. -/
def places : Node → List Place
  | stage s => [⟨stage s, []⟩]
  | synchronizer children fan => ⟨synchronizer children fan, []⟩ :: placesOf children 0
  | wrap w child =>
    ⟨wrap w child, []⟩ ::
      child.places.map
        (.under (if w.name = passthroughWrapper.name then .through else .round w.times))
  | generator g => [⟨generator g, []⟩]

/-- The places inside children that are numbered from some number on. -/
def placesOf : List Node → Nat → List Place
  | [], _ => []
  | n :: rest, i => n.places.map (.under (.child i)) ++ placesOf rest (i + 1)

end

/-- What the outcome of a tree says about a place in a round: the result of a child of a
synchronizer stands at the position of the child, and the result of an iteration at the number
of the iteration. -/
def outcome? : List Descent → List Nat → Outcome → Option Outcome
  | [], _, o => some o
  | .child i :: steps, indices, o => o.children[i]?.bind (outcome? steps indices)
  | .through :: steps, indices, o => outcome? steps indices o
  | .round _ :: steps, i :: indices, o => o.children[i]?.bind (outcome? steps indices)
  | .round _ :: _, [], _ => none

variable {n : Node} {children : List Node} {p : Place}

theorem filter_isStage_inner {ps : List Place} (h : Place.isStage ⟨n, []⟩ = false) :
    (⟨n, []⟩ :: ps).filter (·.isStage) = ps.filter (·.isStage) :=
  List.filter_cons_of_neg (by rw [h]; exact Bool.false_ne_true)

theorem mem_placesOf {i : Nat} : p ∈ placesOf children i ↔
    ∃ (j : Nat) (c : Node) (q : Place), children[j]? = some c ∧ q ∈ c.places ∧
      p = q.under (.child (i + j)) := by
  induction children generalizing i with
  | nil => simp [placesOf]
  | cons c rest ih =>
    rw [placesOf, List.mem_append, List.mem_map, ih]
    constructor
    · rintro (⟨q, hq, rfl⟩ | ⟨j, c', q, hc, hq, rfl⟩)
      · exact ⟨0, c, q, rfl, hq, rfl⟩
      · refine ⟨j + 1, c', q, hc, hq, ?_⟩
        rw [Nat.add_right_comm, Nat.add_assoc]
    · rintro ⟨j, c', q, hc, hq, rfl⟩
      cases j with
      | zero =>
        cases hc
        exact .inl ⟨q, hq, rfl⟩
      | succ j =>
        refine .inr ⟨j, c', q, hc, hq, ?_⟩
        rw [Nat.add_right_comm, Nat.add_assoc]

theorem filter_isStage_under (ps : List Place) (d : Descent) :
    (ps.map (Place.under d)).filter (·.isStage) = (ps.filter (·.isStage)).map (Place.under d) :=
  List.filter_map

theorem map_stages_placesOf {α : Type} {f : Place → α} {i : Nat} :
    ((placesOf children i).filter (·.isStage)).map f = ((children.zipIdx i).map fun c =>
      (c.1.places.filter (·.isStage)).map fun p => f (p.under (.child c.2))).flatten := by
  induction children generalizing i with
  | nil => rfl
  | cons c rest ih =>
    rw [placesOf, List.filter_append, filter_isStage_under, List.map_append, ih, List.map_map,
      List.zipIdx_cons, List.map_cons, List.flatten_cons]
    rfl

mutual

theorem stages_places :
    ∀ n : Node, (n.places.filter (·.isStage)).map (·.node) = n.stages.map stage
  | stage _ | generator _ => rfl
  | synchronizer children _ => by
    rw [places, filter_isStage_inner rfl]
    exact stages_placesOf children 0
  | wrap _ child => by
    rw [places, filter_isStage_inner rfl, filter_isStage_under, List.map_map]
    exact stages_places child

theorem stages_placesOf : ∀ (nodes : List Node) (i : Nat),
    ((placesOf nodes i).filter (·.isStage)).map (·.node) = (stagesOf nodes).map stage
  | [], _ => rfl
  | n :: rest, i => by
    rw [placesOf, stagesOf, List.filter_append, filter_isStage_under, List.map_append,
      List.map_append, List.map_map, stages_placesOf rest]
    exact congrArg (· ++ _) (stages_places n)

end

theorem root_mem_places (n : Node) : ⟨n, []⟩ ∈ n.places := by
  cases n with
  | stage | synchronizer | wrap | generator => exact List.mem_cons_self

mutual

theorem wrapped_mem_places {w : Wrapper} {c : Node} {steps : List Descent} : ∀ n : Node,
    ⟨wrap w c, steps⟩ ∈ n.places →
      ⟨c, steps ++ [if w.name = passthroughWrapper.name then .through else .round w.times]⟩ ∈
        n.places
  | stage _ | generator _ => by simp [places]
  | synchronizer children _ => by
    intro h
    rcases List.mem_cons.1 h with h | h
    · cases h
    · exact List.mem_cons_of_mem _ (wrapped_mem_placesOf children 0 h)
  | wrap v child => by
    intro h
    rcases List.mem_cons.1 h with h | h
    · cases h
      exact List.mem_cons_of_mem _ (List.mem_map_of_mem (root_mem_places _))
    · obtain ⟨⟨_, inner⟩, hq, heq⟩ := List.mem_map.1 h
      cases heq
      exact List.mem_cons_of_mem _ (List.mem_map_of_mem (wrapped_mem_places child hq))

theorem wrapped_mem_placesOf {w : Wrapper} {c : Node} {steps : List Descent} :
    ∀ (nodes : List Node) (i : Nat),
    ⟨wrap w c, steps⟩ ∈ placesOf nodes i →
      ⟨c, steps ++ [if w.name = passthroughWrapper.name then .through else .round w.times]⟩ ∈
        placesOf nodes i
  | [], _ => by simp [placesOf]
  | n :: rest, i => by
    intro h
    rcases List.mem_append.1 h with h | h
    · obtain ⟨⟨_, inner⟩, hq, heq⟩ := List.mem_map.1 h
      cases heq
      exact List.mem_append_left _ (List.mem_map_of_mem (wrapped_mem_places n hq))
    · exact List.mem_append_right _ (wrapped_mem_placesOf rest (i + 1) h)

end

/-- The result of an iteration is the child of that number of what the repeat reports. -/
theorem outcome?_round {steps : List Descent} {times i : Nat} {indices : List Nat} {o : Outcome}
    (h : indices.length = (Place.times ⟨n, steps⟩).length) :
    outcome? (steps ++ [.round times]) (indices ++ [i]) o =
      (outcome? steps indices o).bind fun o' => o'.children[i]? := by
  induction steps generalizing indices o with
  | nil =>
    rw [List.eq_nil_of_length_eq_zero h]
    exact Option.bind_fun_some _
  | cons d steps ih =>
    cases d with
    | child j =>
      change (o.children[j]?.bind _) = (o.children[j]?.bind _).bind _
      cases o.children[j]? with
      | none => rfl
      | some o => exact ih h
    | through => exact ih h
    | round _ =>
      cases indices with
      | nil => cases h
      | cons j indices =>
        change (o.children[j]?.bind _) = (o.children[j]?.bind _).bind _
        cases o.children[j]? with
        | none => rfl
        | some o => exact ih (Nat.succ.inj h)

end Node

end DataPipeline
