import DataPipeline.Proofs.Build.Scope
import DataPipeline.Proofs.Node.Descents
import DataPipeline.Proofs.Node.Results
import DataPipeline.Proofs.Plugin.Accepted

namespace DataPipeline

open Document

/-- How often a wrapper is configured to run its child, if it is the one that repeats: as its
settings say, and twice if they do not. -/
def PluginRef.times? (ref : PluginRef) : Option Nat :=
  if ref.name = "repeat" then
    ((Fields.merge [("times", .nat 2)] (ref.config.getD [])).get? "times").bind Json.asNat?
  else none

namespace Schema

def times? (s : Schema) (place : NodePath) : Option Nat :=
  match s.resolve place.text with
  | .ok (.wrap ref _) => ref.times?
  | _ => none

/-- How often each repeat on the way to a place is configured to repeat, the outermost first. -/
def timesTo (root : Schema) : List Hop → List Nat
  | [] => []
  | .child :: outer => root.timesTo outer ++ ((root.at? outer).bind (·.times? ⟨outer⟩)).toList
  | .library _ :: outer | .children _ :: outer => root.timesTo outer

end Schema

variable {registry : Registry} {root s : Schema} {context : BuildContext} {path : NodePath}
  {ref : PluginRef} {w : Wrapper} {n : Node} {p : Node.Place} {stage : Stage} {k : Nat}

theorem asNat?_nat (k : Nat) : (Json.nat k).asNat? = some k := by
  simp [Json.asNat?]

theorem times_of_create (h : (Registry.builtin.wrappers.create ref context).result = .ok w) :
    w = passthroughWrapper ∧ ref.times? = none ∨
      ∃ times, w = repeatWrapper times ∧ ref.times? = some times := by
  obtain ⟨template, hget, hfactory⟩ := Templates.create_ok.1 h
  obtain ⟨hmem, hname⟩ := Templates.get_mem hget
  simp only [Registry.builtin, List.mem_cons, List.not_mem_nil, or_false] at hmem
  rcases hmem with rfl | rfl
  · cases hfactory
    exact .inl ⟨rfl, if_neg (hname ▸ by decide)⟩
  · obtain ⟨times, hread, hmade⟩ := except_bind_ok.1 hfactory
    have hascending : Fields.Ascending [("times", .nat 2)] := by decide
    obtain ⟨_, htimes, rfl, _⟩ :=
      timesShape_law.told hascending.merge.nodup hread (by decide : "times" ∈ _) rfl
    split at hmade
    · cases hmade
    · cases hmade
      refine .inr ⟨times, rfl, ?_⟩
      rw [PluginRef.times?, if_pos hname.symm, htimes]
      exact asNat?_nat times

namespace Node

/-- The hop from a node of a document to the one that a step leads to. -/
def Descent.hop : Descent → Hop
  | child i => .children i
  | through | round _ => .child

/-- The hops from the root to a place, of which the last comes first. -/
def Place.hops (p : Place) : List Hop := (p.steps.map Descent.hop).reverse

theorem Place.hops_under (d : Descent) (p : Place) : (p.under d).hops = p.hops ++ [d.hop] :=
  List.reverse_cons

end Node

namespace Build

/-- The repeats around a place are those configured on the way to it, and a stage is at the end
of its path. -/
theorem placed_of_ok (hw : registry.wrappers = Registry.builtin.wrappers)
    (hat : root.at? path.hops = some s) (h : (node registry s context path).result = .ok n)
    (hp : p ∈ n.places) :
    root.timesTo path.hops ++ p.times = root.timesTo (p.hops ++ path.hops) ∧
      ∀ stage, p.node = .stage stage → stage.path.hops = p.hops ++ path.hops := by
  induction s using Schema.induction generalizing context path n p with
  | node s ihl ihc ihw =>
    obtain ⟨spec, hs, entries, _, hrest⟩ := node_ok.1 h
    have hfits := Schema.resolve_fits hs
    cases spec with
    | stage g d settings =>
      obtain ⟨_, _, hrest⟩ := Traced.bind_ok.1 hrest
      obtain ⟨_, _, hrest⟩ := Traced.bind_ok.1 hrest
      cases hrest
      cases List.mem_singleton.1 hp
      refine ⟨List.append_nil _, fun stage heq => ?_⟩
      cases heq
      rfl
    | synchronizer children fan =>
      obtain ⟨nodes, hnodes, hrest⟩ := Traced.bind_ok.1 hrest
      cases hrest
      rcases List.mem_cons.1 hp with rfl | hp
      · refine ⟨List.append_nil _, fun stage heq => ?_⟩
        cases heq
      obtain ⟨i, c, q, hc, hq, rfl⟩ := Node.mem_placesOf.1 hp
      obtain ⟨child, hi, hn⟩ := child_of_nodes_at (childNodes_ok.1 hnodes) hc
      have hbelow : s.below? (.children i) = some child := hi
      rw [Node.Place.hops_under, List.append_assoc, Nat.zero_add]
      exact ihc child (List.mem_of_getElem? hi) ((Schema.at?_hop hat).trans hbelow) hn hq
    | wrap ref c =>
      obtain ⟨w, hwrapper, hrest⟩ := Traced.bind_ok.1 hrest
      obtain ⟨child, hchild, hrest⟩ := Traced.bind_ok.1 hrest
      cases hrest
      rcases List.mem_cons.1 hp with rfl | hp
      · refine ⟨List.append_nil _, fun stage heq => ?_⟩
        cases heq
      obtain ⟨q, hq, rfl⟩ := List.mem_map.1 hp
      rw [childNode_some hfits.2] at hchild
      have hbelow : s.below? .child = some c := hfits.2
      obtain ⟨htimes, hstage⟩ :=
        ihw c hfits.2 ((Schema.at?_hop hat).trans hbelow) hchild hq
      have houter : root.timesTo (path.hop .child).hops =
          root.timesTo path.hops ++ ref.times?.toList := by
        simp [NodePath.hop, Schema.timesTo, hat, Schema.times?, hs]
      rw [houter, List.append_assoc] at htimes
      rw [Node.Place.hops_under, List.append_assoc]
      rcases times_of_create (hw ▸ hwrapper) with ⟨rfl, hnone⟩ | ⟨times, rfl, hsome⟩
      · rw [hnone] at htimes
        exact ⟨htimes, hstage⟩
      · rw [hsome] at htimes
        rw [times_repeatWrapper]
        exact ⟨htimes, hstage⟩
    | generator g =>
      obtain ⟨_, _, hrest⟩ := Traced.bind_ok.1 hrest
      cases hrest
      cases List.mem_singleton.1 hp
      refine ⟨List.append_nil _, fun stage heq => ?_⟩
      cases heq

end Build

theorem Node.mem_runsOf {children : List Node} {r : Stage × Nat} :
    r ∈ runsOf children ↔ ∃ c ∈ children, r ∈ c.runs := by
  induction children with
  | nil => simp [runsOf]
  | cons c rest ih => simp [runsOf, ih]

/-- A stage is run as often as the repeats around its place say. -/
theorem Node.Shaped.place_of_mem_runs (h : n.Shaped) (hr : (stage, k) ∈ n.runs) :
    ∃ steps, ⟨.stage stage, steps⟩ ∈ n.places ∧
      (Place.times ⟨.stage stage, steps⟩).prod = k := by
  induction h generalizing k with
  | stage s =>
    cases List.mem_singleton.1 hr
    exact ⟨[], List.mem_singleton_self _, rfl⟩
  | synchronizer hlimit h ih =>
    obtain ⟨c, hc, hr⟩ := mem_runsOf.1 hr
    obtain ⟨steps, hp, hprod⟩ := ih c hc hr
    obtain ⟨i, hi⟩ := List.mem_iff_getElem?.1 hc
    exact ⟨_, List.mem_cons_of_mem _ (mem_placesOf.2 ⟨i, c, _, hi, hp, rfl⟩), hprod⟩
  | passthrough h ih =>
    obtain ⟨⟨_, k⟩, hchild, heq⟩ := List.mem_map.1 hr
    cases heq
    obtain ⟨steps, hp, hprod⟩ := ih hchild
    refine ⟨_, List.mem_cons_of_mem _ (List.mem_map_of_mem hp), ?_⟩
    rw [times_passthroughWrapper, Nat.one_mul]
    exact hprod
  | @repeated times c htimes h ih =>
    obtain ⟨⟨_, k⟩, hchild, heq⟩ := List.mem_map.1 hr
    cases heq
    obtain ⟨steps, hp, hprod⟩ := ih hchild
    refine ⟨_, List.mem_cons_of_mem _ (List.mem_map_of_mem hp), ?_⟩
    rw [← hprod]
    exact List.prod_cons
  | generator g => cases hr

section

variable (hw : registry.wrappers = Registry.builtin.wrappers)
  (hn : (buildPipeline registry root context).result = .ok n)
include hw hn

theorem placed_of_built (hp : p ∈ n.places) :
    p.times = root.timesTo p.hops ∧
    ∀ stage, p.node = .stage stage → stage.path.hops = p.hops := by
  have hroot : root.at? NodePath.root.hops = some root := rfl
  obtain ⟨htimes, hstage⟩ := Build.placed_of_ok hw hroot hn hp
  rw [NodePath.root, List.append_nil] at htimes
  exact ⟨htimes, fun stage heq => (hstage stage heq).trans (List.append_nil _)⟩

theorem times_of_mem_runs (hr : (stage, k) ∈ n.runs) :
    k = (root.timesTo stage.path.hops).prod := by
  obtain ⟨steps, hp, rfl⟩ := ((buildPipeline_builtAt hn).shaped hw).place_of_mem_runs hr
  obtain ⟨htimes, hpath⟩ := placed_of_built hw hn hp
  rw [hpath stage rfl, htimes]

end

end DataPipeline
