import DataPipeline.Plugin.Builtin
import DataPipeline.Proofs.Build.Sequence
import DataPipeline.Proofs.Plugin.Builtin

namespace DataPipeline

/-- Something that a factory of the templates makes. -/
def Templates.Makes {α : Type} (t : Templates α) (a : α) : Prop :=
  ∃ template ∈ t.templates, ∃ config context, template.factory config context = .ok a

theorem Templates.makes_of_create {α : Type} {t : Templates α} {ref : PluginRef}
    {context : BuildContext} {a : α} (h : (t.create ref context).result = .ok a) :
    t.Makes a := by
  obtain ⟨template, ht, hf⟩ := create_ok.1 h
  exact ⟨template, (get_mem ht).1, _, _, hf⟩

/-- A node that a registry's build can make at a place. -/
inductive Node.BuiltAt (registry : Registry) : NodePath → Node → Prop where
  | stage {path g d settings} (hg : registry.generators.Makes g)
      (hd : registry.datajets.Makes d) :
      BuiltAt registry path (.stage ⟨path, g, d, settings⟩)
  | synchronizer {path children fan} (hlimit : fan.maxConcurrency ≠ some 0)
      (h : ∀ i c, children[i]? = some c → BuiltAt registry (path.hop (.children i)) c) :
      BuiltAt registry path (.synchronizer children fan)
  | wrap {path w c} (hw : registry.wrappers.Makes w)
      (h : BuiltAt registry (path.hop .child) c) :
      BuiltAt registry path (.wrap w c)
  | generator {path g} (hg : registry.generators.Makes g) : BuiltAt registry path (.generator g)

namespace Build

variable {registry : Registry} {s : Schema} {context : BuildContext}
  {path : NodePath} {n : Node}

theorem builtAt_of_ok (h : (node registry s context path).result = .ok n) :
    n.BuiltAt registry path := by
  induction s using Schema.induction generalizing context path n with
  | node s ihl ihc ihw =>
    obtain ⟨entries, _, hmade⟩ := made_of_ok h
    cases hmade with
    | stage _ _ hg hd =>
      exact .stage (Templates.makes_of_create hg) (Templates.makes_of_create hd)
    | synchronizer _ hlimit hnodes =>
      apply Node.BuiltAt.synchronizer hlimit
      intro i c hc
      obtain ⟨⟨child, k⟩, hk, hbuilt⟩ := forall₂_getElem? hnodes.flip hc
      rw [List.getElem?_zipIdx, Nat.zero_add, Option.map_eq_some_iff] at hk
      obtain ⟨child, hchild, heq⟩ := hk
      cases heq
      exact ihc child (List.mem_of_getElem? hchild) hbuilt
    | wrap _ hc hw hn => exact .wrap (Templates.makes_of_create hw) (ihw _ hc hn)
    | generator _ _ hg => exact .generator (Templates.makes_of_create hg)

end Build

theorem buildPipeline_builtAt {registry : Registry} {schema : Schema} {context : BuildContext}
    {n : Node} (h : (buildPipeline registry schema context).result = .ok n) :
    n.BuiltAt registry .root :=
  Build.builtAt_of_ok h

theorem makes_builtin_wrapper {w : Wrapper} (h : Registry.builtin.wrappers.Makes w) :
    w = passthroughWrapper ∨ ∃ times, 0 < times ∧ w = repeatWrapper times := by
  obtain ⟨template, hmem, config, context, h⟩ := h
  simp only [Registry.builtin, List.mem_cons, List.not_mem_nil, or_false] at hmem
  rcases hmem with rfl | rfl
  · cases h
    exact .inl rfl
  · obtain ⟨times, _, h⟩ := except_bind_ok.1 h
    split at h
    · cases h
    next htimes =>
      cases h
      exact .inr ⟨times, Nat.pos_of_ne_zero htimes, rfl⟩

namespace Node

mutual

/-- The stages of a tree, from left to right. -/
def stages : Node → List Stage
  | stage s => [s]
  | synchronizer children _ => stagesOf children
  | wrap _ child => child.stages
  | generator _ => []

def stagesOf : List Node → List Stage
  | [] => []
  | n :: rest => n.stages ++ stagesOf rest

end

theorem stagesOf_eq {nodes : List Node} : stagesOf nodes = (nodes.map stages).flatten := by
  induction nodes with
  | nil => rfl
  | cons n nodes ih => rw [stagesOf, ih, List.map_cons, List.flatten_cons]

theorem mem_stages_synchronizer {children : List Node} {fan : FanOutSettings} {s : Stage} :
    s ∈ (synchronizer children fan).stages ↔ ∃ c ∈ children, s ∈ c.stages := by
  rw [stages, stagesOf_eq, ← List.flatMap_def, List.mem_flatMap]

/-- The shape of a tree with built-in wrappers: a synchronizer has room for a child, and a
wrapper passes its child through or repeats it at least once. -/
inductive Shaped : Node → Prop where
  | stage (s : Stage) : Shaped (.stage s)
  | synchronizer {children fan} (hlimit : fan.maxConcurrency ≠ some 0)
      (h : ∀ c ∈ children, Shaped c) : Shaped (.synchronizer children fan)
  | passthrough {c} (h : Shaped c) : Shaped (.wrap passthroughWrapper c)
  | repeated {times c} (htimes : 0 < times) (h : Shaped c) :
      Shaped (.wrap (repeatWrapper times) c)
  | generator (g : Generator) : Shaped (.generator g)

theorem BuiltAt.shaped {registry : Registry} {path : NodePath} {n : Node}
    (hw : registry.wrappers = Registry.builtin.wrappers) (h : n.BuiltAt registry path) :
    n.Shaped := by
  induction h with
  | stage hg hd => exact .stage _
  | synchronizer hlimit hchildren ih =>
    apply Shaped.synchronizer hlimit
    intro c hc
    obtain ⟨i, hi⟩ := List.mem_iff_getElem?.1 hc
    exact ih i c hi
  | wrap hmade hchild ih =>
    rcases makes_builtin_wrapper (hw ▸ hmade) with rfl | ⟨times, htimes, rfl⟩
    · exact .passthrough ih
    · exact .repeated htimes ih
  | generator hg => exact .generator _

end Node

end DataPipeline
