import DataPipeline.Proofs.Build.Visible
import DataPipeline.Proofs.Plugin.Accepted

namespace DataPipeline

namespace Schema

/-- The innermost declaration of an id that can be seen at a node is of a kind that publishes a
generator. -/
def Publishes (root : Schema) (place : NodePath) (id : String) : Prop :=
  ∃ declared entry, root.declaration? (place :: NodePath.enclosing place.hops) id =
    some declared ∧
    root.at? declared.hops = some entry ∧
    (entry.kind = .ok .stage ∨ entry.kind = .ok .generator)

/-- A node of a schema has the shape of its kind, entries with ids of their own, and plugins
that are registered and have settings that suit them. -/
structure WellFormed (root : Schema) (place : NodePath) (s : Schema) : Prop where
  resolves : ∃ spec, s.resolve place.text = .ok spec
  named : ∀ entry ∈ s.library, entry.referenceId ≠ none
  distinct : (s.library.map (·.referenceId)).Nodup
  plugins : ∀ spec, s.resolve place.text = .ok spec → ∀ kind ref, (kind, ref) ∈ spec.plugins →
    ∃ config, Registry.builtin.mergedConfig kind ref = .ok config ∧
      Configured (root.Publishes place) config kind ref.name

end Schema

/-- A node was built from what stands at its place. -/
def Node.BuiltFrom (root : Schema) (place : NodePath) (n : Node) : Prop :=
  ∃ entry, root.at? place.hops = some entry ∧ entry.kind = .ok n.kind

theorem Node.generator?_eq_some {n : Node} :
    (∃ g, n.generator? = some g) ↔ n.kind = .stage ∨ n.kind = .generator := by
  cases n <;> simp [Node.generator?, Node.kind]

variable {registry : Registry} {root s : Schema} {context : BuildContext}
  {place path : NodePath}

theorem Sees.publishes_iff
    (h : Sees root (Node.BuiltFrom root) (place :: NodePath.enclosing place.hops) context)
    (id : String) :
    root.Publishes place id ↔
    ∃ n g, context.library.get? id = some n ∧ n.generator? = some g := by
  constructor
  · rintro ⟨declared, entry, hdeclared, hentry, hkind⟩
    obtain ⟨n, hn, _, hat, hsame⟩ := h.bound id declared hdeclared
    cases hentry.symm.trans hat
    rw [hsame, Except.ok.injEq, Except.ok.injEq] at hkind
    obtain ⟨g, hg⟩ := Node.generator?_eq_some.2 hkind
    exact ⟨n, g, hn, hg⟩
  · rintro ⟨n, g, hn, hg⟩
    cases hdeclared : root.declaration? (place :: NodePath.enclosing place.hops) id with
    | none => cases hn.symm.trans (h.free id hdeclared)
    | some declared =>
      obtain ⟨n', hn', entry, hentry, hkind⟩ := h.bound id declared hdeclared
      cases hn.symm.trans hn'
      refine ⟨declared, entry, hdeclared, hentry, ?_⟩
      rw [hkind, Except.ok.injEq, Except.ok.injEq]
      exact Node.generator?_eq_some.1 ⟨g, hg⟩

theorem Build.kind_of_ok {n : Node} (h : (Build.node registry s context path).result = .ok n) :
    s.kind = .ok n.kind := by
  obtain ⟨entries, _, hmade⟩ := made_of_ok h
  cases hmade with
  | stage hk | synchronizer hk | wrap hk | generator hk => exact hk

theorem Sees.inside {entries : List (String × Node)}
    (h : Sees root (Node.BuiltFrom root) (NodePath.enclosing path.hops) context)
    (hat : root.at? path.hops = some s)
    (library : (Build.libraryEntries registry s.library context path 0 []).result =
      .ok entries) :
    Sees root (Node.BuiltFrom root) (path :: NodePath.enclosing path.hops)
      (context.derive s entries) := by
  apply h.derive hat library
  intro i entry n hi hn
  exact ⟨entry, (Schema.at?_hop hat).trans hi, Build.kind_of_ok hn⟩

namespace Build

theorem canMake_of_rest {spec : Spec} {n : Node} {kind : PluginKind} {ref : PluginRef}
    (h : (rest registry s context path spec).result = .ok n) (hp : (kind, ref) ∈ spec.plugins) :
    registry.CanMake kind ref context := by
  cases spec with
  | stage g d settings =>
    obtain ⟨generator, hg, h⟩ := Traced.bind_ok.1 h
    obtain ⟨datajet, hd, h⟩ := Traced.bind_ok.1 h
    simp only [Spec.plugins, List.mem_cons, List.not_mem_nil, or_false, Prod.mk.injEq] at hp
    rcases hp with ⟨rfl, rfl⟩ | ⟨rfl, rfl⟩
    · exact ⟨generator, hg⟩
    · exact ⟨datajet, hd⟩
  | synchronizer children fan => cases hp
  | wrap w c =>
    obtain ⟨wrapper, hw, h⟩ := Traced.bind_ok.1 h
    cases List.mem_singleton.1 hp
    exact ⟨wrapper, hw⟩
  | generator g =>
    obtain ⟨generator, hg, h⟩ := Traced.bind_ok.1 h
    cases List.mem_singleton.1 hp
    exact ⟨generator, hg⟩

theorem PluginStops.not_canMake {spec : Spec} {e : BuildError}
    (h : PluginStops registry context e spec) :
    ∃ kind ref, (kind, ref) ∈ spec.plugins ∧ ¬registry.CanMake kind ref context := by
  cases spec with
  | stage g d settings =>
    rcases h with h | ⟨_, _, h⟩
    · exact ⟨.generator, g, List.mem_cons_self, fun ⟨_, hg⟩ => nomatch hg.symm.trans h⟩
    · refine ⟨.datajet, d, List.mem_cons_of_mem _ List.mem_cons_self, ?_⟩
      exact fun ⟨_, hd⟩ => nomatch hd.symm.trans h
  | synchronizer children fan => cases h
  | wrap w c => exact ⟨.wrapper, w, List.mem_cons_self, fun ⟨_, hw⟩ => nomatch hw.symm.trans h⟩
  | generator g =>
    exact ⟨.generator, g, List.mem_cons_self, fun ⟨_, hg⟩ => nomatch hg.symm.trans h⟩

theorem wellFormed_of_ok {n : Node} (hat : root.at? path.hops = some s)
    (hsees : Sees root (Node.BuiltFrom root) (NodePath.enclosing path.hops) context)
    (h : (node Registry.builtin s context path).result = .ok n) : root.WellFormed path s := by
  obtain ⟨spec, hs, entries, library, hrest⟩ := node_ok.1 h
  have hids := libraryEntries_ids library
  have hpublished := (hsees.inside hat library).publishes_iff
  refine ⟨⟨spec, hs⟩, ?_, ?_, ?_⟩
  · intro entry hentry hnone
    have hmem : none ∈ s.library.map (·.referenceId) := List.mem_map.2 ⟨entry, hentry, hnone⟩
    rw [hids] at hmem
    obtain ⟨_, _, hsome⟩ := List.mem_map.1 hmem
    cases hsome
  · have hsome : entries.map (fun published => some published.1) =
        (entries.map (·.1)).map some := List.map_map.symm
    rw [hids, hsome]
    exact (libraryEntries_ok.1 library).2.1.map fun _ _ => Option.some.inj
  · intro spec' hs' kind ref hp
    cases hs.symm.trans hs'
    exact (Registry.builtin_canMake kind ref hpublished).1 (canMake_of_rest hrest hp)

theorem not_mem_published {k : Nat} {entry : Schema} {entries : List (String × Node)}
    {id : String}
    (before : (libraryEntries registry (s.library.take k) context path 0 []).result =
      .ok entries)
    (hk : s.library[k]? = some entry) (hid : entry.referenceId = some id)
    (hdistinct : (s.library.map (·.referenceId)).Nodup) : id ∉ entries.map (·.1) := by
  intro hmem
  obtain ⟨earlier, hearlier, hsame⟩ := (mem_published before).1 hmem
  have hlater : entry ∈ s.library.drop k := by
    apply List.mem_of_getElem? (i := 0)
    rw [List.getElem?_drop, Nat.add_zero, hk]
  rw [← List.take_append_drop k s.library, List.map_append] at hdistinct
  exact List.disjoint_of_nodup_append hdistinct (List.mem_map.2 ⟨earlier, hearlier, hsame⟩)
    (List.mem_map.2 ⟨entry, hlater, hid⟩)

/-- Where a build stops, some node is not well-formed. -/
theorem Stops.not_wellFormed {e : BuildError}
    (h : Stops Registry.builtin s context path place e) (hs : root.Holds path s)
    (hsees : Sees root (Node.BuiltFrom root) (NodePath.enclosing path.hops) context) :
    ∃ place s, root.Holds place s ∧ ¬root.WellFormed place s := by
  induction h with
  | shape h =>
    refine ⟨_, _, hs, fun hw => ?_⟩
    obtain ⟨spec, hspec⟩ := hw.resolves
    cases h.symm.trans hspec
  | unnamed _ hk before hid =>
    exact ⟨_, _, hs, fun hw => hw.named _ (List.mem_of_getElem? hk) hid⟩
  | repeated _ hk before hid taken =>
    exact ⟨_, _, hs, fun hw => not_mem_published before hk hid hw.distinct taken⟩
  | entry _ hk before hid fresh inner ih => exact ih (hs.library hk) hsees
  | plugin hspec library h =>
    obtain ⟨kind, ref, hp, hnot⟩ := h.not_canMake
    refine ⟨_, _, hs, fun hw => hnot ?_⟩
    have hpublished := (hsees.inside hs.at?_eq library).publishes_iff
    exact (Registry.builtin_canMake kind ref hpublished).2 (hw.plugins _ hspec kind ref hp)
  | child hspec library hk before inner ih =>
    exact ih (hs.children (Schema.resolve_fits hspec).1 hk) (hsees.inside hs.at?_eq library)
  | wrapped hspec library before inner ih =>
    have hfits := Schema.resolve_fits hspec
    exact ih (hs.child hfits.1 hfits.2) (hsees.inside hs.at?_eq library)

end Build

/-- A pipeline can be built from exactly the schemas whose nodes are all well-formed: with the
built-in plugins, and where nothing was published before. -/
theorem buildPipeline_accepts (schema : Schema) (context : BuildContext)
    (h : context.library.entries = []) :
    (∃ n, (buildPipeline Registry.builtin schema context).result = .ok n) ↔
      ∀ place s, schema.Holds place s → schema.WellFormed place s := by
  have hsees : Sees schema (Node.BuiltFrom schema) [] (context.withRoot schema) :=
    .root_context h
  constructor
  · rintro ⟨n, hn⟩ place s hs
    obtain ⟨_, _, hsees, hbuilt⟩ := Build.built_of_holds hn hsees
      (fun hs _ hn => ⟨_, hs.at?_eq, Build.kind_of_ok hn⟩) hs
    exact Build.wellFormed_of_ok hs.at?_eq hsees hbuilt
  · intro hall
    cases hresult : (buildPipeline Registry.builtin schema context).result with
    | ok n => exact ⟨n, rfl⟩
    | error e =>
      obtain ⟨place, hstops⟩ := Build.stops_of_error hresult
      obtain ⟨place, s, hs, hnot⟩ := hstops.not_wellFormed .root hsees
      exact absurd (hall place s hs) hnot

theorem buildPipeline_accepts_stageOfEntry :
    (BuildContext.mk "" "" {} none none).library.entries = [] ∧
      (∃ n, (buildPipeline Registry.builtin stageOfEntry (.mk "" "" {} none none)).result =
        .ok n) ∧
      ∀ place s, stageOfEntry.Holds place s → stageOfEntry.WellFormed place s :=
  ⟨rfl, ⟨_, rfl⟩, (buildPipeline_accepts stageOfEntry (.mk "" "" {} none none) rfl).1 ⟨_, rfl⟩⟩

end DataPipeline
