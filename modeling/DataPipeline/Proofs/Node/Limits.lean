import DataPipeline.Proofs.Node.Place
import DataPipeline.Proofs.Node.Tenants
import DataPipeline.Proofs.Node.Views
import DataPipeline.Proofs.Run.SideBySide

namespace DataPipeline

namespace Node

/-- A tree in which the children of a synchronizer run one after another. -/
def viewInOrder : Node → NodeView := viewBy Stage.execute fun _ => Activity.inOrder

def executeInOrder (n : Node) : Execution := n.viewInOrder.execute

/-- A tree with other limits, each of them absent or at least one. -/
inductive Relimited : Node → Node → Prop where
  | stage (s : Stage) : Relimited (.stage s) (.stage s)
  | synchronizer {children children' fan fan'} (hlen : children'.length = children.length)
      (h : ∀ (i : Nat) c c', children[i]? = some c → children'[i]? = some c' → Relimited c c')
      (hlimit : fan'.maxConcurrency ≠ some 0) :
      Relimited (.synchronizer children fan) (.synchronizer children' fan')
  | wrap {w c c'} (h : Relimited c c') : Relimited (.wrap w c) (.wrap w c')
  | generator (g : Generator) : Relimited (.generator g) (.generator g)

theorem executeInOrder_synchronizer (nodes : List Node) (fan : FanOutSettings)
    (settings : RunSettings) (ctx : RunContext) :
    (synchronizer nodes fan).executeInOrder settings ctx =
      (Activity.inOrder (nodes.map (·.executeInOrder settings ctx))).bind fun outcomes =>
        .done (Outcome.aggregate (synchronizer nodes fan).descriptor outcomes) :=
  execute_viewBy_synchronizer nodes fan settings ctx

variable {T : Tenancy} {registry : Registry} {path : NodePath} {n n' : Node}
  {settings : RunSettings} {ctx : RunContext}

theorem map_eq_of_getElem? {β : Type} {children children' : List Node} {f : Node → β}
    (hlen : children'.length = children.length)
    (h : ∀ (i : Nat) c c', children[i]? = some c → children'[i]? = some c' → f c' = f c) :
    children'.map f = children.map f := by
  refine List.ext_getElem (by simp [hlen]) fun i hi' hi => ?_
  rw [List.length_map] at hi hi'
  rw [List.getElem_map, List.getElem_map]
  exact h i _ _ (List.getElem?_eq_getElem hi) (List.getElem?_eq_getElem hi')

theorem Relimited.builtAt (h : Relimited n n') (hn : n.BuiltAt registry path) :
    n'.BuiltAt registry path := by
  induction h generalizing path with
  | stage s => exact hn
  | synchronizer hlen h hlimit ih =>
    cases hn with
    | synchronizer _ hchildren =>
      refine .synchronizer hlimit fun i c' hc' => ?_
      have hi := (List.getElem?_eq_some_iff.1 hc').1
      rw [hlen] at hi
      have hc := List.getElem?_eq_getElem hi
      exact ih i _ c' hc hc' (hchildren i _ hc)
  | wrap h ih =>
    cases hn with
    | wrap hw hchild => exact .wrap hw (ih hchild)
  | generator g => exact hn

theorem Relimited.viewInOrder_eq (h : Relimited n n') : n'.viewInOrder = n.viewInOrder := by
  induction h with
  | stage s => rfl
  | synchronizer hlen h hlimit ih =>
    rw [viewInOrder, viewBy, viewBy, viewAllBy_eq, viewAllBy_eq, ← viewInOrder,
      map_eq_of_getElem? hlen ih]
    rfl
  | wrap h ih =>
    rw [viewInOrder, viewBy, viewBy, ← viewInOrder, ih]
    rfl
  | generator g => rfl

theorem Relimited.stages_eq (h : Relimited n n') : n'.stages = n.stages := by
  induction h with
  | stage s => rfl
  | synchronizer hlen h hlimit ih =>
    rw [stages, stages, stagesOf_eq, stagesOf_eq, map_eq_of_getElem? hlen ih]
  | wrap h ih =>
    rw [stages, stages, ih]
  | generator g => rfl

theorem alike_repeatFrom {P : Set String} {child child' : Execution}
    (h : ∀ ctx, Cells.Alike T P (child settings ctx) (child' settings ctx)) (times i : Nat) :
    Cells.Alike T P (repeatFrom child settings ctx times i)
      (repeatFrom child' settings ctx times i) := by
  induction times generalizing i with
  | zero => exact Cells.alike_done []
  | succ times ih => exact (h _).bind fun o => (ih (i + 1)).bind fun os => Cells.alike_done _

/-- Children from a position on are at places of their own. -/
theorem apart_children {children : List Node} {start : Nat}
    (h : ∀ (i : Nat) c, children[i]? = some c →
      Cells.Alike T (path.hop (.children (start + i))).under (c.execute settings ctx)
        (c.executeInOrder settings ctx)) :
    ∃ P, Cells.Apart T (children.map (·.execute settings ctx))
        (children.map (·.executeInOrder settings ctx)) P ∧
      ∀ place ∈ P, ∃ i, start ≤ i ∧ place ∈ (path.hop (.children i)).under := by
  induction children generalizing start with
  | nil => exact ⟨∅, .nil, nofun⟩
  | cons c rest ih =>
    have hrest : ∀ (i : Nat) c, rest[i]? = some c →
        Cells.Alike T (path.hop (.children (start + 1 + i))).under (c.execute settings ctx)
          (c.executeInOrder settings ctx) := by
      intro i c hc
      rw [show start + 1 + i = start + (i + 1) by omega]
      exact h (i + 1) c hc
    obtain ⟨Q, hQ, hplaces⟩ := ih hrest
    -- all the other children are inside later hops than this one
    have hdisjoint : Disjoint (path.hop (.children start)).under Q := by
      rw [Set.disjoint_right]
      intro place hmem hplace
      obtain ⟨i, hi, hunder⟩ := hplaces place hmem
      have hne : Hop.children start ≠ Hop.children i := by
        intro heq
        cases heq
        omega
      exact Set.disjoint_left.1 (NodePath.disjoint_under hne) hplace hunder
    refine ⟨_, .cons (h 0 c rfl) hdisjoint hQ, ?_⟩
    rintro place (hplace | hplace)
    · exact ⟨start, Nat.le_refl _, hplace⟩
    · obtain ⟨i, hi, hunder⟩ := hplaces place hplace
      exact ⟨i, by omega, hunder⟩

/-- A run ends as one in which the children of each synchronizer run one after another. -/
theorem alike_executeInOrder (hw : registry.wrappers = Registry.builtin.wrappers)
    (hn : n.BuiltAt registry path) (hT : ∀ s ∈ n.stages, T.Governs s) (settings : RunSettings)
    (ctx : RunContext) :
    Cells.Alike T path.under (n.execute settings ctx) (n.executeInOrder settings ctx) := by
  induction hn generalizing ctx with
  | @stage path g d s hg hd =>
    intro σ
    have hs : T.Governs ⟨path, g, d, s⟩ := hT _ List.mem_cons_self
    obtain ⟨r, hr⟩ := hs.alone_execute settings ctx σ
    have hplace : {path.text} ⊆ path.under := Set.singleton_subset_iff.2 path.text_mem_under
    exact ⟨r, hr.mono hplace, hr.mono hplace⟩
  | @synchronizer path children fan hlimit hchildren ih =>
    have hchild : ∀ (i : Nat) c, children[i]? = some c →
        Cells.Alike T (path.hop (.children (0 + i))).under (c.execute settings ctx)
          (c.executeInOrder settings ctx) := by
      intro i c hc
      rw [Nat.zero_add]
      refine ih i c hc (fun s hs => hT s ?_) ctx
      rw [stages, stagesOf_eq]
      exact List.mem_flatten.2 ⟨_, List.mem_map_of_mem (List.mem_of_getElem? hc), hs⟩
    obtain ⟨P, hP, hplaces⟩ := apart_children hchild
    have hunder : P ⊆ path.under := by
      intro place hplace
      obtain ⟨i, _, hunder⟩ := hplaces place hplace
      exact NodePath.under_hop_subset path _ hunder
    rw [execute_synchronizer, executeInOrder_synchronizer]
    exact ((hP.fanOut hlimit).mono hunder).bind fun os => Cells.alike_done _
  | @wrap path w c hmade hchild ih =>
    have hc (ctx : RunContext) : Cells.Alike T path.under (c.execute settings ctx)
        (c.executeInOrder settings ctx) :=
      (ih (fun s hs => hT s hs) ctx).mono (NodePath.under_hop_subset path .child)
    rcases makes_builtin_wrapper (hw ▸ hmade) with rfl | ⟨times, _, rfl⟩
    · exact hc ctx
    · exact (alike_repeatFrom hc times 0).bind fun os => Cells.alike_done _
  | generator hg => exact Cells.alike_done _

end Node

/-- In a pipeline of built-in wrappers whose stages keep to themselves, other limits change
neither the outcome of a run nor what is offered and counted at any place. It is what running
the children of each synchronizer one after another comes to. -/
theorem execute_limits (registry : Registry)
    (hw : registry.wrappers = Registry.builtin.wrappers) (schema : Schema)
    (context : BuildContext) (n n' : Node)
    (hb : (buildPipeline registry schema context).result = .ok n) (hn : n.Relimited n')
    (T : Tenancy) (hT : ∀ s ∈ n.stages, T.Governs s) (settings : RunSettings) (ctx : RunContext)
    (w : World) (own : String → T.State) (hd : T.Holds own w.disk) :
    SameEnd ((n'.execute settings ctx).run w) ((n.execute settings ctx).run w) ∧
      SameEnd ((n.execute settings ctx).run w) ((n.executeInOrder settings ctx).run w) := by
  let σ : Cells T := fun place => ⟨own place, w.offeredAt place, w.metrics.at? place⟩
  have hσ : Cells.Shows σ w := ⟨fun _ => rfl, fun _ => rfl, hd⟩
  have hbuilt := buildPipeline_builtAt hb
  have hinOrder := (Node.alike_executeInOrder hw hbuilt hT settings ctx).sameEnd hσ
  have hT' : ∀ s ∈ n'.stages, T.Governs s := by
    rw [hn.stages_eq]
    exact hT
  have hinOrder' :=
    (Node.alike_executeInOrder hw (hn.builtAt hbuilt) hT' settings ctx).sameEnd hσ
  rw [Node.executeInOrder, hn.viewInOrder_eq, ← Node.executeInOrder] at hinOrder'
  exact ⟨hinOrder'.trans hinOrder.symm, hinOrder⟩

/-- A count written to a file at the root. -/
def countTo (file : String) : Schema where
  generator := some ⟨"increment", none⟩
  datajet := some ⟨"file", some [("path", .string file)]⟩

/-- Two counts, one after the other. -/
def twoCounts : Schema where
  component := some "synchronizer"
  config := some (.object [("maxConcurrency", .nat 1)])
  children := [countTo "a", countTo "b"]

/-- What is built from it, with a limit. -/
def builtTwoCounts (limit : Option Nat) : Node :=
  .synchronizer
    [.stage ⟨.hop .root (.children 0), incrementGenerator ⟨10, 1, "value"⟩,
      fileDatajet "/a", {}⟩,
      .stage ⟨.hop .root (.children 1), incrementGenerator ⟨10, 1, "value"⟩,
        fileDatajet "/b", {}⟩]
    ⟨limit⟩

/-- The file of each of the two. -/
def fileOfCount (place : String) : Option String :=
  if place = "$.children[0]" then some "/a"
  else if place = "$.children[1]" then some "/b" else none

theorem houses_fileOfCount :
    Disk.Houses {} fileOfCount (fun place => if place = "$.children[0]" then ["a"] else ["b"])
      fun _ => .empty where
  target place path h := by
    unfold fileOfCount at h
    split at h
    next hplace =>
      cases h
      rw [if_pos hplace]
      rfl
    next hplace =>
      obtain ⟨_, h⟩ := Option.ite_none_right_eq_some.1 h
      cases h
      rw [if_neg hplace]
      rfl
  parent place path parent h hparent := by
    have hroot : parent = "/" := by
      unfold fileOfCount at h
      split at h
      · cases h
        cases hparent
        rfl
      · obtain ⟨_, h⟩ := Option.ite_none_right_eq_some.1 h
        cases h
        cases hparent
        rfl
    rw [hroot]
    rfl
  apart place path place' path' h h' hlocation := by
    unfold fileOfCount at h h'
    grind

theorem execute_limits_twoCounts :
    (buildPipeline Registry.builtin twoCounts (.mk "/" "/" {} none none)).result =
        .ok (builtTwoCounts (some 1)) ∧
      ∃ o w, ((builtTwoCounts none).execute {} {}).run {} = some (o, w) ∧ o.isSuccess = true ∧
        (w.offeredAt "$.children[1]").length = 1 := by
  have hn : (builtTwoCounts (some 1)).Relimited (builtTwoCounts none) := by
    refine .synchronizer rfl (fun i c c' hc hc' => ?_) nofun
    cases hc.symm.trans hc'
    rcases i with _ | _ | i
    · cases hc
      exact .stage _
    · cases hc
      exact .stage _
    · cases hc
  have hT : ∀ s ∈ (builtTwoCounts (some 1)).stages, (Tenancy.files fileOfCount).Governs s := by
    intro s hs
    rcases List.mem_cons.1 hs with rfl | hs
    · exact Tenancy.files_governs (incrementGenerator_silent _) (.file rfl)
    · cases List.mem_singleton.1 hs
      exact Tenancy.files_governs (incrementGenerator_silent _) (.file rfl)
  obtain ⟨hlimit, hinOrder⟩ := execute_limits Registry.builtin rfl twoCounts
    (.mk "/" "/" {} none none) (builtTwoCounts (some 1)) (builtTwoCounts none) rfl hn
    (Tenancy.files fileOfCount) hT {} {} {} (fun _ => .empty) ⟨_, houses_fileOfCount⟩
  obtain ⟨o, w, hrun, hsuccess, hoffered⟩ : ∃ o w,
      ((builtTwoCounts (some 1)).executeInOrder {} {}).run {} = some (o, w) ∧
        o.isSuccess = true ∧ (w.offeredAt "$.children[1]").length = 1 := ⟨_, _, rfl, rfl, rfl⟩
  have hsame := hlimit.trans hinOrder
  rw [hrun] at hsame
  generalize hrun' : ((builtTwoCounts none).execute {} {}).run {} = e at hsame
  cases hsame with
  | @ended _ w' _ offered counters =>
    exact ⟨rfl, o, w', rfl, hsuccess, by rw [offered, hoffered]⟩

end DataPipeline
