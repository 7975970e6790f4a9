import DataPipeline.Node.Execute

namespace DataPipeline

/-- What is seen of a node is also there to be seen from outside of the nodes that hold it. -/
inductive NodeView.PartOf : NodeView → NodeView → Prop where
  | refl (v : NodeView) : PartOf v v
  | inside {u c v : NodeView} (hc : c ∈ v.children) (h : PartOf u c) : PartOf u v

namespace Node

/-- A node is another one or inside it. -/
inductive PartOf : Node → Node → Prop where
  | refl (n : Node) : PartOf n n
  | inside {m c n : Node} (hc : c ∈ n.children) (h : PartOf m c) : PartOf m n

theorem partOf_of_view {u v : NodeView} (h : u.PartOf v) :
    ∀ {n : Node}, v = n.view → ∃ m : Node, m.PartOf n ∧ u = m.view := by
  induction h with
  | refl =>
    intro n hv
    exact ⟨n, .refl n, hv⟩
  | inside hc h ih =>
    rintro n rfl
    rw [children_view] at hc
    obtain ⟨child, hchild, heq⟩ := List.mem_map.1 hc
    obtain ⟨m, hm, hu⟩ := ih heq.symm
    exact ⟨m, .inside hchild hm, hu⟩

section

variable (run : Stage → Execution)
  (gather : FanOutSettings → List (Activity Outcome) → Activity (List Outcome))

mutual

/-- A tree that runs its stages in some way, and the children of its synchronizers. -/
def viewBy : Node → NodeView
  | stage s => ⟨(stage s).descriptor, some s.generator, [], run s⟩
  | synchronizer children fan =>
    let seen := viewAllBy children
    ⟨(synchronizer children fan).descriptor, none, seen, fun settings ctx =>
      (gather fan (seen.map (·.execute settings ctx))).bind fun outcomes =>
        .done (Outcome.aggregate (synchronizer children fan).descriptor outcomes)⟩
  | wrap w child =>
    let seen := viewBy child
    ⟨(wrap w child).descriptor, none, [seen], w.execute seen⟩
  | generator g =>
    ⟨(generator g).descriptor, some g, [],
      fun _ _ => .done { stage := (generator g).descriptor }⟩

def viewAllBy : List Node → List NodeView
  | [] => []
  | n :: rest => viewBy n :: viewAllBy rest

end

end

variable {run : Stage → Execution}
  {gather : FanOutSettings → List (Activity Outcome) → Activity (List Outcome)}

theorem viewAllBy_eq :
    ∀ nodes : List Node, viewAllBy run gather nodes = nodes.map (viewBy run gather)
  | [] => rfl
  | n :: rest => by rw [viewAllBy, viewAllBy_eq rest, List.map_cons]

theorem execute_viewBy_synchronizer (nodes : List Node) (fan : FanOutSettings)
    (settings : RunSettings) (ctx : RunContext) :
    ((synchronizer nodes fan).viewBy run gather).execute settings ctx =
      (gather fan (nodes.map fun n => (n.viewBy run gather).execute settings ctx)).bind
        fun outcomes =>
        .done (Outcome.aggregate (synchronizer nodes fan).descriptor outcomes) := by
  rw [viewBy, viewAllBy_eq]
  simp only [List.map_map]
  rfl

mutual

theorem viewBy_execute : ∀ n : Node,
    n.viewBy Stage.execute (fun fan => Activity.fanOut fan.maxConcurrency) = n.view
  | stage _ | generator _ => rfl
  | synchronizer children fan => by
    rw [viewBy, view, viewAllBy_execute children]
  | wrap w child => by
    rw [viewBy, view, viewBy_execute child]

theorem viewAllBy_execute : ∀ nodes : List Node,
    viewAllBy Stage.execute (fun fan => Activity.fanOut fan.maxConcurrency) nodes =
      viewAll nodes
  | [] => rfl
  | n :: rest => by rw [viewAllBy, viewAll, viewBy_execute n, viewAllBy_execute rest]

end

/-- A run that runs the stages in some way. -/
def executeBy (n : Node) (run : Stage → Execution) : Execution :=
  (n.viewBy run fun fan => Activity.fanOut fan.maxConcurrency).execute

theorem executeBy_synchronizer (nodes : List Node) (fan : FanOutSettings)
    (settings : RunSettings) (ctx : RunContext) :
    (synchronizer nodes fan).executeBy run settings ctx =
      (Activity.fanOut fan.maxConcurrency (nodes.map (·.executeBy run settings ctx))).bind
        fun outcomes =>
          .done (Outcome.aggregate (synchronizer nodes fan).descriptor outcomes) :=
  execute_viewBy_synchronizer nodes fan settings ctx

theorem executeBy_execute (n : Node) : n.executeBy Stage.execute = n.execute := by
  rw [executeBy, viewBy_execute]
  rfl

end Node

end DataPipeline
