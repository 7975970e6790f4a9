import DataPipeline.Proofs.Build.Sequence
import DataPipeline.Proofs.Check.Membership
import DataPipeline.Proofs.Lock.Outline
import DataPipeline.Proofs.Schema.Spelled

namespace DataPipeline

/-- What can be seen in a context apart from the schemas. -/
def BuildContext.bare (c : BuildContext) : BuildContext :=
  { c with rootSchema := none, localSchema := none }

/-- Factories that do not look at the schemas. -/
def Templates.Blind {α : Type} (t : Templates α) : Prop :=
  ∀ template ∈ t.templates, ∀ config context,
    template.factory config context = template.factory config context.bare

structure Registry.Blind (r : Registry) : Prop where
  generators : r.generators.Blind
  wrappers : r.wrappers.Blind
  datajets : r.datajets.Blind

theorem Registry.builtin_blind : Registry.builtin.Blind where
  generators := by
    intro template hmem config context
    simp only [Registry.builtin, List.mem_cons, List.not_mem_nil, or_false] at hmem
    rcases hmem with rfl | rfl | rfl <;> rfl
  wrappers := by
    intro template hmem config context
    simp only [Registry.builtin, List.mem_cons, List.not_mem_nil, or_false] at hmem
    rcases hmem with rfl | rfl <;> rfl
  datajets := by
    intro template hmem config context
    simp only [Registry.builtin, List.mem_cons, List.not_mem_nil, or_false] at hmem
    rcases hmem with rfl | rfl | rfl <;> rfl

theorem Registry.builtin_proper : Registry.builtin.Proper where
  generators := by decide
  wrappers := by decide
  datajets := by decide

variable {registry : Registry} {s : Schema} {context context' : BuildContext} {path : NodePath}
  {spec : Spec}

namespace Check

variable {visible scope declared : List String}

theorem plugin_spell (hregistry : registry.Proper) (kind : PluginKind) (ref : PluginRef)
    (place : NodePath) (scope : List String) :
    plugin registry kind (registry.spell kind ref) place scope =
      plugin registry kind ref place scope := by
  rw [plugin, plugin, hregistry.mergedConfig_spell, registry.name_spell]

theorem entries_spelled {library : List Schema} {index : Nat}
    (h : ∀ entry ∈ library, ∀ visible path,
      node registry (entry.spelled registry) visible path = node registry entry visible path) :
    entries registry (library.map (·.spelled registry)) visible path index declared =
      entries registry library visible path index declared := by
  induction library generalizing index declared with
  | nil => rfl
  | cons entry library ih =>
    rw [List.forall_mem_cons] at h
    rw [List.map_cons, entries, entries, Schema.referenceId_spelled, h.1]
    simp only [ih h.2]

theorem childNodes_spelled {children : List Schema} {index : Nat}
    (h : ∀ c ∈ children, ∀ visible path,
      node registry (c.spelled registry) visible path = node registry c visible path) :
    childNodes registry (children.map (·.spelled registry)) scope path index =
      childNodes registry children scope path index := by
  induction children generalizing index with
  | nil => rfl
  | cons child children ih =>
    rw [List.forall_mem_cons] at h
    rw [List.map_cons, childNodes, childNodes, h.1, ih h.2]

theorem node_spelled (hregistry : registry.Proper) (s : Schema) (visible : List String)
    (path : NodePath) :
    node registry (s.spelled registry) visible path = node registry s visible path := by
  induction s using Schema.induction generalizing visible path with
  | node s ihl ihc ihw =>
    cases hs : s.resolve path.text with
    | error e => rw [Schema.spelled_of_error hs]
    | ok spec =>
      have hrest (scope : List String) :
          rest registry (s.spelled registry) path scope (spec.spelled registry) =
            rest registry s path scope spec := by
        rw [Schema.spelled_of_ok hs]
        cases spec with
        | stage g d settings =>
          simp only [Spec.spelled, rest, plugin_spell hregistry]
        | synchronizer children fan =>
          simp only [Spec.spelled, rest, Schema.withSpelled, List.isEmpty_map,
            childNodes_spelled ihc]
        | wrap w c =>
          have hchild := (Schema.resolve_fits hs).2
          simp only [Spec.spelled, rest, Schema.withSpelled, plugin_spell hregistry, hchild,
            Option.map_some, childNode, ihw c hchild]
        | generator g =>
          change (if s.referenceId.isNone then Findings.doubt (.unusable path) else .none) ++
            plugin registry .generator (registry.spell .generator g) path scope = _
          rw [plugin_spell hregistry]
          rfl
      rw [node_of_ok (Schema.resolve_spelled hregistry hs), node_of_ok hs,
        Schema.library_spelled hs, entries_spelled ihl, hrest]

end Check

namespace Lock

/-- What is pinned inside a node. -/
def inner (registry : Registry) (s : Schema) (path : NodePath) :
    Spec → Except BuildError (List NodeLock)
  | .synchronizer _ _ => nodes registry s.children path .children 0
  | .wrap _ _ => childNode registry s.child path
  | .stage .. | .generator _ => .ok []

theorem node_eq (s : Schema) : node registry s path = (do
    let spec ← s.resolve path.text
    let pins ← plugins registry spec
    let entries ← nodes registry s.library path .library 0
    let inner ← inner registry s path spec
    .ok (⟨path, spec.kind, s.referenceId, pins⟩ :: entries ++ inner)) := by
  cases s
  rw [node]
  apply bind_congr
  intro spec
  cases spec <;> rfl

theorem plugins_spelled (hregistry : registry.Proper) (spec : Spec) :
    plugins registry (spec.spelled registry) = plugins registry spec := by
  have hplugin (kind : PluginKind) (ref : PluginRef) :
      plugin registry kind (registry.spell kind ref) = plugin registry kind ref := by
    rw [plugin, plugin, hregistry.mergedConfig_spell, registry.name_spell]
  cases spec <;> simp only [Spec.spelled, plugins, hplugin]

theorem nodes_spelled {l : List Schema} {hop : Nat → Hop} {index : Nat}
    (h : ∀ s ∈ l, ∀ path, node registry (s.spelled registry) path = node registry s path) :
    nodes registry (l.map (·.spelled registry)) path hop index =
      nodes registry l path hop index := by
  induction l generalizing index with
  | nil => rfl
  | cons s l ih =>
    rw [List.forall_mem_cons] at h
    rw [List.map_cons, nodes, nodes, h.1, ih h.2]

theorem node_spelled (hregistry : registry.Proper) (s : Schema) (path : NodePath) :
    node registry (s.spelled registry) path = node registry s path := by
  induction s using Schema.induction generalizing path with
  | node s ihl ihc ihw =>
    cases hs : s.resolve path.text with
    | error e => rw [Schema.spelled_of_error hs]
    | ok spec =>
      have hkind : (spec.spelled registry).kind = spec.kind := by cases spec <;> rfl
      have hinner : inner registry (s.spelled registry) path (spec.spelled registry) =
          inner registry s path spec := by
        rw [Schema.spelled_of_ok hs]
        cases spec with
        | stage g d settings => rfl
        | synchronizer children fan => exact nodes_spelled ihc
        | wrap w c =>
          have hchild := (Schema.resolve_fits hs).2
          simp only [Spec.spelled, inner, Schema.withSpelled, hchild,
            Option.map_some, childNode, ihw c hchild]
        | generator g => rfl
      rw [node_eq, node_eq, Schema.resolve_spelled hregistry hs, hs]
      change (plugins registry (spec.spelled registry) >>= _) = (plugins registry spec >>= _)
      rw [plugins_spelled hregistry, Schema.library_spelled hs, nodes_spelled ihl,
        hinner, hkind, Schema.referenceId_spelled]

end Lock

namespace BuildContext

theorem bare_derive (h : context'.bare = context.bare) (s s' : Schema)
    (entries : List (String × Node)) :
    (context'.derive s' entries).bare = (context.derive s entries).bare := by
  have hdata : context'.dataRoot = context.dataRoot := congrArg (·.dataRoot) h
  have hworkspace : context'.workspaceRoot = context.workspaceRoot :=
    congrArg (·.workspaceRoot) h
  have hlibrary : context'.library = context.library := congrArg (·.library) h
  rw [bare, bare, derive, derive, hdata, hworkspace, hlibrary]

end BuildContext

theorem Templates.Blind.create {α : Type} {t : Templates α} (ht : t.Blind)
    {ref ref' : PluginRef} (hname : ref'.name = ref.name)
    (hconfig : t.mergedConfig ref' = t.mergedConfig ref)
    (hbare : context'.bare = context.bare) :
    (t.create ref' context').result = (t.create ref context).result := by
  unfold mergedConfig at hconfig
  rw [hname] at hconfig
  unfold Templates.create
  rw [hname]
  cases hget : t.get ref.name with
  | error e => rfl
  | ok template =>
    rw [hget] at hconfig
    have hmerged : template.mergedConfig ref'.config = template.mergedConfig ref.config :=
      Except.ok.inj hconfig
    have hblind := ht template (get_mem hget).1
    dsimp only
    rw [hmerged, hblind, hbare, ← hblind]

namespace Build

theorem libraryEntries_spelled {library : List Schema} {index : Nat} {seen : List String}
    (h : ∀ entry ∈ library,
      ∀ path, (node registry (entry.spelled registry) context' path).result =
      (node registry entry context path).result) :
    (libraryEntries registry
      (library.map (·.spelled registry)) context' path index seen).result =
      (libraryEntries registry library context path index seen).result := by
  induction library generalizing index seen with
  | nil => rfl
  | cons entry library ih =>
    rw [List.forall_mem_cons] at h
    rw [List.map_cons, libraryEntries, libraryEntries, Schema.referenceId_spelled]
    cases entry.referenceId with
    | none => rfl
    | some id =>
      dsimp only
      split
      · rfl
      · simp only [Traced.result_bind, h.1, ih h.2]

theorem childNodes_spelled {children : List Schema} {index : Nat}
    (h : ∀ c ∈ children, ∀ path, (node registry (c.spelled registry) context' path).result =
      (node registry c context path).result) :
    (childNodes registry (children.map (·.spelled registry)) context' path index).result =
      (childNodes registry children context path index).result := by
  induction children generalizing index with
  | nil => rfl
  | cons child children ih =>
    rw [List.forall_mem_cons] at h
    rw [List.map_cons, childNodes, childNodes]
    simp only [Traced.result_bind, h.1, ih h.2]

theorem node_spelled (hregistry : registry.Proper) (hblind : registry.Blind) (s : Schema)
    (path : NodePath) (hbare : context'.bare = context.bare) :
    (node registry (s.spelled registry) context' path).result =
      (node registry s context path).result := by
  induction s using Schema.induction generalizing context context' path with
  | node s ihl ihc ihw =>
    cases hs : s.resolve path.text with
    | error e =>
      rw [Schema.spelled_of_error hs, node_eq, node_eq, hs]
      rfl
    | ok spec =>
      have hlibrary :
          (libraryEntries registry (s.spelled registry).library context' path 0 []).result =
          (libraryEntries registry s.library context path 0 []).result := by
        rw [Schema.library_spelled hs]
        apply libraryEntries_spelled
        intro entry hentry path
        exact ihl entry hentry path hbare
      have hrest (entries : List (String × Node)) :
          (rest registry (s.spelled registry)
            (context'.derive (s.spelled registry) entries) path
            (spec.spelled registry)).result =
          (rest registry s (context.derive s entries) path spec).result := by
        have hderived := BuildContext.bare_derive hbare s (s.spelled registry) entries
        generalize context'.derive (s.spelled registry) entries = context' at hderived ⊢
        generalize context.derive s entries = context at hderived ⊢
        rw [Schema.spelled_of_ok hs]
        cases spec with
        | stage g d settings =>
          have hg := hblind.generators.create (registry.name_spell .generator g)
            (hregistry.mergedConfig_spell .generator g) hderived
          have hd := hblind.datajets.create (registry.name_spell .datajet d)
            (hregistry.mergedConfig_spell .datajet d) hderived
          simp only [Spec.spelled, rest, Traced.result_bind, hg, hd]
        | synchronizer children fan =>
          have hnodes :
              (childNodes registry
                (s.children.map (·.spelled registry)) context' path 0).result =
              (childNodes registry s.children context path 0).result :=
            childNodes_spelled fun c hc path => ihc c hc path hderived
          simp only [Spec.spelled, rest, Schema.withSpelled, Traced.result_bind, hnodes]
        | wrap w c =>
          have hchild := (Schema.resolve_fits hs).2
          have hw := hblind.wrappers.create (registry.name_spell .wrapper w)
            (hregistry.mergedConfig_spell .wrapper w) hderived
          simp only [Spec.spelled, rest, Schema.withSpelled, Traced.result_bind, hw, hchild,
            Option.map_some, childNode, ihw c hchild _ hderived]
        | generator g =>
          have hg := hblind.generators.create (registry.name_spell .generator g)
            (hregistry.mergedConfig_spell .generator g) hderived
          simp only [Spec.spelled, rest, Traced.result_bind, hg]
      rw [node_eq, node_eq, Schema.resolve_spelled hregistry hs, hs]
      simp only [Traced.result_bind, Traced.result_of, hlibrary]
      change (_ >>= fun entries => (rest registry (s.spelled registry) _ path _).result) =
        (_ >>= fun entries => (rest registry s _ path spec).result)
      simp only [hrest]

end Build

/-- Defaults spelled out change nothing. What is checked, in which order, and what is pinned
stay the same, as does the tree that the built-in plugins make of the schema, or why they make
none; and to spell the defaults out once more changes nothing at all. -/
theorem spelled_unchanged (registry : Registry) (hregistry : registry.Proper) (s : Schema) :
    checkSchema registry (s.spelled registry) = checkSchema registry s ∧
    lockSchema registry (s.spelled registry) = lockSchema registry s ∧
    (∀ context, (buildPipeline .builtin (s.spelled .builtin) context).result =
      (buildPipeline .builtin s context).result) ∧
    (s.spelled registry).spelled registry = s.spelled registry := by
  have hbuild (context : BuildContext) :
      (buildPipeline .builtin (s.spelled .builtin) context).result =
      (buildPipeline .builtin s context).result :=
    Build.node_spelled Registry.builtin_proper Registry.builtin_blind s .root rfl
  exact ⟨Check.node_spelled hregistry s [] .root, Lock.node_spelled hregistry s .root, hbuild,
    Schema.spelled_spelled hregistry s⟩

/-- A stage with the defaults of its generator, repeated as often as the wrapper does on its
own. -/
def defaultSettings : Schema where
  component := some "wrap"
  config := some (.object [("wrapper", .object [("name", .string "repeat")])])
  child := some
    { generator := some ⟨"static", some [("records", .null)]⟩, datajet :=
      some ⟨"discard", none⟩ }

theorem spelled_unchanged_defaultSettings :
    Registry.builtin.Proper ∧
      (defaultSettings.spelled .builtin).config =
        some (.object [("wrapper", .object [("config", .object [("times", .nat 2)]),
          ("name", .string "repeat")])]) ∧
      (defaultSettings.spelled .builtin).child.bind (·.generator) =
        some ⟨"static", some [("records", .null), ("repeat", .nat 1)]⟩ ∧
      lockSchema .builtin (defaultSettings.spelled .builtin) =
        lockSchema .builtin defaultSettings :=
  ⟨Registry.builtin_proper, rfl, rfl,
    (spelled_unchanged .builtin Registry.builtin_proper defaultSettings).2.1⟩

end DataPipeline
