import DataPipeline.Proofs.Build.Failure
import DataPipeline.Proofs.Lock.Outline

namespace DataPipeline

/-- A hop into a library leads to a place. -/
def NodePath.inLibrary (p : NodePath) : Bool :=
  p.hops.any fun h =>
    match h with
    | .library _ => true
    | .children _ | .child => false

namespace Node

mutual

/-- The nodes of a tree, each before its children. -/
def preorder : Node → List Node
  | stage s => [stage s]
  | synchronizer children fan => synchronizer children fan :: preorderOf children
  | wrap w child => wrap w child :: child.preorder
  | generator g => [generator g]

def preorderOf : List Node → List Node
  | [] => []
  | n :: rest => n.preorder ++ preorderOf rest

end

end Node

/-- The name that the plugins of an entry make up. -/
def NodeLock.title? (l : NodeLock) : Option String :=
  match l.component, l.plugins with
  | .stage, [⟨.generator, g, _⟩, ⟨.datajet, d, _⟩] => some (g ++ "->" ++ d)
  | .synchronizer, [] => some ComponentKind.synchronizer.name
  | .wrap, [⟨.wrapper, w, _⟩] => some w
  | .generator, [⟨.generator, g, _⟩] => some g
  | _, _ => none

/-- An entry of a lock speaks of a built node. -/
structure Node.LockedAs (registry : Registry) (n : Node) (l : NodeLock) : Prop where
  component : n.kind = l.component
  path : ∀ stage, n = .stage stage → stage.path = l.path
  title : registry.Naming → l.title? = some n.name

namespace Lock

variable {registry : Registry} {path : NodePath} {t : Outline}

/-- The entries for places that no hop into a library leads to. -/
def outside (nodes : List NodeLock) : List NodeLock := nodes.filter fun l => !l.path.inLibrary

@[simp] theorem outside_append {nodes nodes' : List NodeLock} :
    outside (nodes ++ nodes') = outside nodes ++ outside nodes' := List.filter_append ..

theorem outside_cons {l : NodeLock} {nodes : List NodeLock} (h : l.path.inLibrary = false) :
    outside (l :: nodes) = l :: outside nodes := by
  rw [outside, List.filter_cons_of_pos (by simp [h])]
  rfl

theorem inLibrary_of_suffix {outer : NodePath} (h : outer.inLibrary = true)
    (hsuffix : outer.hops <:+ path.hops) : path.inLibrary = true := by
  obtain ⟨hop, hmem, hlibrary⟩ := List.any_eq_true.1 h
  exact List.any_eq_true.2 ⟨hop, hsuffix.subset hmem, hlibrary⟩

theorem outside_library {library : List Outline} {index : Nat} :
    outside (Outline.listedFrom library path .library index) = [] := by
  rw [outside, List.filter_eq_nil_iff]
  intro l hl
  obtain ⟨i, t, _, hl⟩ := Outline.mem_listedFrom.1 hl
  have hin : l.path.inLibrary = true := inLibrary_of_suffix rfl (Outline.suffix_of_mem hl)
  simp [hin]

theorem outside_listed {component : ComponentKind} {referenceId : Option String}
    {pins : List PluginLock} {library children : List Outline} {child : Option Outline}
    (h : path.inLibrary = false) :
    outside ((Outline.node component referenceId pins library children child).listed path) =
      ⟨path, component, referenceId, pins⟩ ::
        (outside (Outline.listedFrom children path .children 0) ++
          outside (Outline.listedChild child path)) := by
  rw [Outline.listed, outside_cons h, outside_append, outside_library, outside_append,
    List.nil_append]

end Lock

theorem Templates.mergedConfig_of_create {α : Type} {t : Templates α} {ref : PluginRef}
    {context : BuildContext} {a : α} (h : (t.create ref context).result = .ok a) :
    ∃ config, t.mergedConfig ref = .ok config := by
  obtain ⟨template, hget, _⟩ := create_ok.1 h
  exact ⟨_, mergedConfig_ok.2 ⟨template, hget, rfl⟩⟩

theorem Registry.pin?_ok (registry : Registry) (kind : PluginKind) {ref : PluginRef}
    {config : Fields} (h : registry.mergedConfig kind ref = .ok config) :
    ∃ digest, registry.pin? (kind, ref) = some ⟨kind, ref.name, digest⟩ := by
  rw [pin?, h]
  exact ⟨_, rfl⟩

namespace Schema

variable {registry : Registry} {s : Schema} {pins : List PluginLock} {entries : List Outline}

theorem outlines?_of_forall {l : List Schema}
    (h : ∀ s ∈ l, ∃ t, s.outline? registry = some t) :
    ∃ ts, outlines? registry l = some ts := by
  induction l with
  | nil => exact ⟨[], rfl⟩
  | cons s l ih =>
    rw [List.forall_mem_cons] at h
    obtain ⟨t, ht⟩ := h.1
    obtain ⟨ts, hts⟩ := ih h.2
    rw [outlines?, ht, hts]
    exact ⟨t :: ts, rfl⟩

/-- The tree of a node whose plugins and library are there, for each kind of node. -/
def outlineOver? (registry : Registry) (s : Schema) (pins : List PluginLock)
    (entries : List Outline) : Spec → Option Outline
  | .synchronizer .. => (outlines? registry s.children).map fun inner =>
      .node .synchronizer s.referenceId pins entries inner none
  | .wrap .. => (outlineChild? registry s.child).map fun inner =>
      .node .wrap s.referenceId pins entries [] inner
  | .stage .. => some (.node .stage s.referenceId pins entries [] none)
  | .generator _ => some (.node .generator s.referenceId pins entries [] none)

theorem outline?_eq {spec : Spec} (hs : s.resolve NodePath.root.text = .ok spec)
    (hp : spec.plugins.mapM registry.pin? = some pins)
    (hl : outlines? registry s.library = some entries) :
    s.outline? registry = s.outlineOver? registry pins entries spec := by
  obtain ⟨component, referenceId, library, config, children, child, generator,
    datajet, stage⟩ := s
  change outlines? registry library = some entries at hl
  rw [outline?, hs]
  simp only [Except.toOption, Option.bind_eq_bind, Option.bind_some, hp, hl]
  cases spec with
  | stage | generator => rfl
  | synchronizer =>
    change (outlines? registry children).bind _ = (outlines? registry children).map _
    cases outlines? registry children <;> rfl
  | wrap =>
    change (outlineChild? registry child).bind _ = (outlineChild? registry child).map _
    cases outlineChild? registry child <;> rfl

end Schema

namespace Build

open Lock (outside)

variable {registry : Registry} {s : Schema} {context : BuildContext}
  {path : NodePath} {n : Node}

/-- A lock lists a schema, and what it lists outside of libraries is a built node and what is in
it. -/
def Listed (registry : Registry) (s : Schema) (path : NodePath) (n : Node) : Prop :=
  ∃ t, s.outline? registry = some t ∧ (path.inLibrary = false →
    List.Forall₂ (Node.LockedAs registry) n.preorder (outside (t.listed path)))

theorem listed_library {index : Nat} {seen : List String} {entries : List (String × Node)}
    {library : List Schema}
    (ih : ∀ entry ∈ library, ∀ {context path n},
      (node registry entry context path).result = .ok n → Listed registry entry path n)
    (h : (libraryEntries registry library context path index seen).result = .ok entries) :
    ∃ ts, Schema.outlines? registry library = some ts := by
  apply Schema.outlines?_of_forall
  intro entry hentry
  obtain ⟨k, hk⟩ := List.mem_iff_getElem?.1 hentry
  obtain ⟨_, _, _, hn⟩ := published_of_getElem? h hk
  obtain ⟨t, ht, _⟩ := ih entry hentry hn
  exact ⟨t, ht⟩

theorem listed_children {children : List Schema} {index : Nat} {nodes : List Node}
    (ih : ∀ c ∈ children, ∀ {context path n},
      (node registry c context path).result = .ok n → Listed registry c path n)
    (h : (childNodes registry children context path index).result = .ok nodes) :
    ∃ ts, Schema.outlines? registry children = some ts ∧ (path.inLibrary = false →
      List.Forall₂ (Node.LockedAs registry) (Node.preorderOf nodes)
        (outside (Outline.listedFrom ts path .children index))) := by
  induction children generalizing index nodes with
  | nil =>
    cases h
    exact ⟨[], rfl, fun _ => .nil⟩
  | cons c children ihchildren =>
    rw [List.forall_mem_cons] at ih
    obtain ⟨n, hn, h⟩ := Traced.bind_ok.1 h
    obtain ⟨rest, hrest, h⟩ := Traced.bind_ok.1 h
    cases h
    obtain ⟨t, ht, hlisted⟩ := ih.1 hn
    obtain ⟨ts, hts, hothers⟩ := ihchildren ih.2 hrest
    refine ⟨t :: ts, ?_, fun hpath => ?_⟩
    · rw [Schema.outlines?, ht, hts]
      rfl
    · rw [Outline.listedFrom, Lock.outside_append]
      exact List.rel_append (hlisted hpath) (hothers hpath)

section

variable {locked : List Outline}

theorem listed_stage {g d : PluginRef} {settings : StageSettings} {generator : Generator}
    {datajet : Datajet} (hs : s.resolve NodePath.root.text = .ok (.stage g d settings))
    (hl : Schema.outlines? registry s.library = some locked)
    (hg : (registry.generators.create g context).result = .ok generator)
    (hd : (registry.datajets.create d context).result = .ok datajet) :
    Listed registry s path (.stage ⟨path, generator, datajet, settings⟩) := by
  obtain ⟨config, hconfig⟩ := Templates.mergedConfig_of_create hg
  obtain ⟨digest, hpin⟩ := registry.pin?_ok .generator hconfig
  obtain ⟨config', hconfig'⟩ := Templates.mergedConfig_of_create hd
  obtain ⟨digest', hpin'⟩ := registry.pin?_ok .datajet hconfig'
  have hpins : (Spec.stage g d settings).plugins.mapM registry.pin? =
      some [⟨.generator, g.name, digest⟩, ⟨.datajet, d.name, digest'⟩] := by
    simp [Spec.plugins, hpin, hpin']
  refine ⟨_, Schema.outline?_eq hs hpins hl, fun hpath => ?_⟩
  rw [Lock.outside_listed hpath]
  refine .cons ⟨rfl, ?_, fun hnaming => ?_⟩ .nil
  · rintro _ ⟨⟩
    rfl
  · rw [NodeLock.title?, Node.name, hnaming.generators.create hg, hnaming.datajets.create hd]

theorem listed_synchronizer {children : List Schema} {settings : FanOutSettings}
    {nodes : List Node}
    (hs : s.resolve NodePath.root.text = .ok (.synchronizer children settings))
    (hl : Schema.outlines? registry s.library = some locked)
    (hchildren : ∃ ts, Schema.outlines? registry s.children = some ts ∧
      (path.inLibrary = false →
      List.Forall₂ (Node.LockedAs registry) (Node.preorderOf nodes)
        (outside (Outline.listedFrom ts path .children 0)))) :
    Listed registry s path (.synchronizer nodes settings) := by
  obtain ⟨inner, hi, hinner⟩ := hchildren
  have htree := Schema.outline?_eq hs rfl hl
  rw [Schema.outlineOver?, hi] at htree
  refine ⟨_, htree, fun hpath => ?_⟩
  rw [Lock.outside_listed hpath, Node.preorder]
  refine .cons ⟨rfl, ?_, fun _ => rfl⟩ ?_
  · intro stage heq
    cases heq
  · simpa [outside, Outline.listedChild] using hinner hpath

theorem listed_wrap {w : PluginRef} {c : Schema} {wrapper : Wrapper} {child : Node}
    (hs : s.resolve NodePath.root.text = .ok (.wrap w c))
    (hl : Schema.outlines? registry s.library = some locked)
    (hw : (registry.wrappers.create w context).result = .ok wrapper) (hc : s.child = some c)
    (hchild : Listed registry c (path.hop .child) child) :
    Listed registry s path (.wrap wrapper child) := by
  obtain ⟨t, ht, hlisted⟩ := hchild
  obtain ⟨config, hconfig⟩ := Templates.mergedConfig_of_create hw
  obtain ⟨digest, hpin⟩ := registry.pin?_ok .wrapper hconfig
  have hpins :
      (Spec.wrap w c).plugins.mapM registry.pin? = some [⟨.wrapper, w.name, digest⟩] := by
    simp [Spec.plugins, hpin]
  have htree := Schema.outline?_eq hs hpins hl
  rw [Schema.outlineOver?, hc, Schema.outlineChild?, ht] at htree
  refine ⟨_, htree, fun hpath => ?_⟩
  rw [Lock.outside_listed hpath, Node.preorder]
  refine .cons ⟨rfl, ?_, fun hnaming => ?_⟩ (hlisted hpath)
  · intro stage heq
    cases heq
  · rw [NodeLock.title?, Node.name, hnaming.wrappers.create hw]

theorem listed_generator {g : PluginRef} {generator : Generator}
    (hs : s.resolve NodePath.root.text = .ok (.generator g))
    (hl : Schema.outlines? registry s.library = some locked)
    (hg : (registry.generators.create g context).result = .ok generator) :
    Listed registry s path (.generator generator) := by
  obtain ⟨config, hconfig⟩ := Templates.mergedConfig_of_create hg
  obtain ⟨digest, hpin⟩ := registry.pin?_ok .generator hconfig
  have hpins :
      (Spec.generator g).plugins.mapM registry.pin? = some [⟨.generator, g.name, digest⟩] := by
    simp [Spec.plugins, hpin]
  refine ⟨_, Schema.outline?_eq hs hpins hl, fun hpath => ?_⟩
  rw [Lock.outside_listed hpath]
  refine .cons ⟨rfl, ?_, fun hnaming => ?_⟩ .nil
  · intro stage heq
    cases heq
  · rw [NodeLock.title?, Node.name, hnaming.generators.create hg]

end

/-- What can be built can be locked, and is listed there. -/
theorem listed_of_ok (h : (node registry s context path).result = .ok n) :
    Listed registry s path n := by
  induction s using Schema.induction generalizing context path n with
  | node s ihl ihc ihw =>
    obtain ⟨spec, hs, entries, library, h⟩ := node_ok.1 h
    have hroot : s.resolve NodePath.root.text = .ok spec := Schema.resolve_ok_of_path hs
    have hfits := Schema.resolve_fits hs
    obtain ⟨locked, hl⟩ := listed_library ihl library
    cases spec with
    | stage g d settings =>
      obtain ⟨generator, hg, h⟩ := Traced.bind_ok.1 h
      obtain ⟨datajet, hd, h⟩ := Traced.bind_ok.1 h
      cases h
      exact listed_stage hroot hl hg hd
    | synchronizer children fan =>
      obtain ⟨nodes, hnodes, h⟩ := Traced.bind_ok.1 h
      cases h
      exact listed_synchronizer hroot hl (listed_children ihc hnodes)
    | wrap w c =>
      obtain ⟨wrapper, hw, h⟩ := Traced.bind_ok.1 h
      obtain ⟨m, hm, h⟩ := Traced.bind_ok.1 h
      cases h
      rw [childNode_some hfits.2] at hm
      exact listed_wrap hroot hl hw hfits.2 (ihw c hfits.2 hm)
    | generator g =>
      obtain ⟨generator, hg, h⟩ := Traced.bind_ok.1 h
      cases h
      exact listed_generator hroot hl hg

end Build

/-- A build and a lock walk the same tree. A schema that can be built can be locked, and the
entries of the lock that are in no library speak of the nodes of the built tree one by one, in
the order in which each node comes before its children: of the same kind, a stage at the same
place, and with the names of the built-in plugins making up that of the node. -/
theorem buildPipeline_lockSchema (registry : Registry) (schema : Schema)
    (context : BuildContext) (n : Node)
    (h : (buildPipeline registry schema context).result = .ok n) :
    ∃ nodes, lockSchema registry schema = .ok nodes ∧
      List.Forall₂
        (fun node l => node.kind = l.component ∧
          (∀ stage, node = .stage stage → stage.path.text = l.path.text) ∧
          (registry = Registry.builtin → l.title? = some node.descriptor.name))
        n.preorder (nodes.filter fun l => !l.path.inLibrary) := by
  obtain ⟨t, ht, hlisted⟩ := Build.listed_of_ok h
  refine ⟨t.listed .root, ?_, (hlisted rfl).imp fun node l hl => ⟨hl.component, ?_, ?_⟩⟩
  · rw [← toOption_eq_some, lockSchema, Lock.toOption_node, ht]
    rfl
  · intro stage hstage
    rw [hl.path stage hstage]
  · rintro rfl
    exact hl.title Registry.builtin_naming

theorem buildPipeline_lockSchema_stageOfEntry :
    ∃ n, (buildPipeline Registry.builtin stageOfEntry (.mk "" "" {} none none)).result = .ok n ∧
      ∃ nodes, lockSchema Registry.builtin stageOfEntry = .ok nodes ∧
        (nodes.filter fun l => !l.path.inLibrary).map NodeLock.title? =
          [some "synchronizer", some "library->discard"] := by
  have hbuild :
      ∃ n, (buildPipeline Registry.builtin stageOfEntry (.mk "" "" {} none none)).result =
      .ok n := ⟨_, rfl⟩
  obtain ⟨n, hn⟩ := hbuild
  obtain ⟨nodes, hnodes, hpairs⟩ :=
    buildPipeline_lockSchema Registry.builtin stageOfEntry (.mk "" "" {} none none) n hn
  refine ⟨n, hn, nodes, hnodes, ?_⟩
  have htitles : (nodes.filter fun l => !l.path.inLibrary).map NodeLock.title? =
      n.preorder.map fun node => some node.descriptor.name := by
    rw [← List.forall₂_eq_eq_eq, List.forall₂_map_left_iff, List.forall₂_map_right_iff]
    exact hpairs.flip.imp fun l node h => h.2.2 rfl
  rw [htitles]
  cases hn
  rfl

end DataPipeline
