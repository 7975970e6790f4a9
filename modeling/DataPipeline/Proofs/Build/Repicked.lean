import DataPipeline.Proofs.Build.References
import DataPipeline.Proofs.Node.Renamed

namespace DataPipeline

namespace Schema

mutual

/-- A schema with other generators at the places that are picked. -/
def repick (pick : NodePath → Option PluginRef) : Schema → NodePath → Schema
  | ⟨component, referenceId, library, config, children, child, generator, datajet, stage⟩,
      path =>
    ⟨component, referenceId, repickFrom pick library .library path 0, config,
      repickFrom pick children .children path 0, repickChild pick child path,
      (pick path).or generator, datajet, stage⟩

def repickFrom (pick : NodePath → Option PluginRef) :
    List Schema → (Nat → Hop) → NodePath → Nat → List Schema
  | [], _, _, _ => []
  | s :: rest, hop, path, index =>
    s.repick pick (path.hop (hop index)) :: repickFrom pick rest hop path (index + 1)

def repickChild (pick : NodePath → Option PluginRef) : Option Schema → NodePath → Option Schema
  | none, _ => none
  | some s, path => some (s.repick pick (path.hop .child))

end

end Schema

def Spec.repick (pick : NodePath → Option PluginRef) (path : NodePath) : Spec → Spec
  | stage ref datajet settings => stage ((pick path).getD ref) datajet settings
  | synchronizer children settings =>
    synchronizer (Schema.repickFrom pick children .children path 0) settings
  | wrap wrapper child => wrap wrapper (child.repick pick (path.hop .child))
  | generator ref => generator ((pick path).getD ref)

/-- At a place there is a stage with a library reference, which leads to a generator. -/
def Schema.RefersTo (root : Schema) (place : NodePath) (source : PluginRef) : Prop :=
  ∃ s ref, root.Holds place s ∧ s.kind = .ok .stage ∧ s.generator = some ref ∧
    ref.name = "library" ∧
    root.Leads place ref source

/-- The names of the generators that are picked. -/
def Registry.pickedName (registry : Registry) (context : BuildContext)
    (pick : NodePath → Option PluginRef) (place : NodePath) : Option String :=
  (pick place).bind fun ref =>
    (registry.generators.create ref context).result.toOption.map Generator.name

/-- A context that sees the same nodes, but for the names of their generators. -/
structure BuildContext.Renames (names : NodePath → Option String)
    (context context' : BuildContext) :
    Prop where
  workspaceRoot : context'.workspaceRoot = context.workspaceRoot
  entries :
    context'.library.entries = context.library.entries.map (Prod.map id (Node.rename names))

/-- Nothing but the workspace matters to the factories of some templates. -/
def Templates.OfWorkspace {α : Type} (t : Templates α) : Prop :=
  ∀ template ∈ t.templates, ∀ config (context context' : BuildContext),
    context'.workspaceRoot = context.workspaceRoot →
      template.factory config context' = template.factory config context

section

variable {more : List (Template Generator)} {pick : NodePath → Option PluginRef}
  {names : NodePath → Option String} {root s : Schema} {path : NodePath}
  {initial context context' : BuildContext} {ref : PluginRef} {g : Generator} {n : Node}
  {entries : List (String × Node)}

namespace Schema

theorem repick_eq : s.repick pick path =
    { s with
      library := repickFrom pick s.library .library path 0
      children := repickFrom pick s.children .children path 0
      child := repickChild pick s.child path
      generator := (pick path).or s.generator } := by
  cases s
  rw [repick]

theorem library_repick :
    (s.repick pick path).library = repickFrom pick s.library .library path 0 := by
  rw [repick_eq]

theorem children_repick :
    (s.repick pick path).children = repickFrom pick s.children .children path 0 := by
  rw [repick_eq]

theorem child_repick {c : Schema} (h : s.child = some c) :
    (s.repick pick path).child = some (c.repick pick (path.hop .child)) := by
  rw [repick_eq]
  dsimp only
  rw [h, repickChild]

theorem zipIdx_repickFrom {l : List Schema} {hop : Nat → Hop} {index : Nat} :
    (repickFrom pick l hop path index).zipIdx index =
      (l.zipIdx index).map fun e => (e.1.repick pick (path.hop (hop e.2)), e.2) := by
  induction l generalizing index with
  | nil => rfl
  | cons s l ih => rw [repickFrom, List.zipIdx_cons, List.zipIdx_cons, List.map_cons, ih]

theorem resolve_repick {text : String} {spec : Spec} (h : s.resolve text = .ok spec) :
    (s.repick pick path).resolve text = .ok (spec.repick pick path) := by
  have hpicked {g : PluginRef} {d : Defect} (h : require text d s.generator = .ok g) :
      require text d ((pick path).or s.generator) = .ok ((pick path).getD g) := by
    rw [require_ok] at h ⊢
    rw [h, Option.or_some]
  rw [repick_eq]
  obtain ⟨k, hk, h⟩ := except_bind_ok.1 h
  apply except_bind_ok.2 ⟨k, hk, _⟩
  cases k with
  | stage =>
    obtain ⟨g, hg, h⟩ := except_bind_ok.1 h
    obtain ⟨d, hd, h⟩ := except_bind_ok.1 h
    obtain ⟨settings, hsettings, h⟩ := except_bind_ok.1 h
    cases h
    exact except_bind_ok.2
      ⟨_, hpicked hg, except_bind_ok.2 ⟨d, hd, except_bind_ok.2 ⟨_, hsettings, rfl⟩⟩⟩
  | synchronizer =>
    obtain ⟨fan, hfan, h⟩ := except_bind_ok.1 h
    apply except_bind_ok.2 ⟨fan, hfan, _⟩
    split at h
    · cases h
    next hlimit =>
      cases h
      exact if_neg hlimit
  | wrap =>
    obtain ⟨c, hc, h⟩ := except_bind_ok.1 h
    obtain ⟨config, hconfig, h⟩ := except_bind_ok.1 h
    obtain ⟨wrapper?, hread, h⟩ := except_bind_ok.1 h
    obtain ⟨wrapper, hwrapper, h⟩ := except_bind_ok.1 h
    cases h
    have hc' : repickChild pick s.child path = some (c.repick pick (path.hop .child)) := by
      rw [require_ok.1 hc, repickChild]
    exact except_bind_ok.2 ⟨_, require_ok.2 hc',
      except_bind_ok.2 ⟨config, hconfig, except_bind_ok.2
      ⟨wrapper?, hread, except_bind_ok.2 ⟨wrapper, hwrapper, rfl⟩⟩⟩⟩
  | generator =>
    obtain ⟨g, hg, h⟩ := except_bind_ok.1 h
    cases h
    exact except_bind_ok.2 ⟨_, hpicked hg, rfl⟩

end Schema

namespace BuildContext.Renames

theorem get? (h : Renames names context context') (id : String) :
    context'.library.get? id = (context.library.get? id).map (Node.rename names) := by
  rw [Library.get?, Library.get?, h.entries, List.find?_map, Option.map_map, Option.map_map]
  rfl

theorem withRoot (h : context.library.entries = []) (root root' : Schema) :
    Renames names (context.withRoot root) (context.withRoot root') where
  workspaceRoot := rfl
  entries := by
    change context.library.entries = context.library.entries.map _
    rw [h]
    rfl

theorem derive (h : Renames names context context') (s s' : Schema)
    (entries : List (String × Node)) :
    Renames names (context.derive s entries)
      (context'.derive s' (entries.map (Prod.map id (Node.rename names)))) where
  workspaceRoot := h.workspaceRoot
  entries := by
    change (entries.map _).reverse ++ context'.library.entries =
      (entries.reverse ++ context.library.entries).map _
    rw [h.entries, List.map_append, List.map_reverse]

end BuildContext.Renames

theorem Templates.OfWorkspace.create {α : Type} {t : Templates α} {a : α} (ht : t.OfWorkspace)
    (hroot : context'.workspaceRoot = context.workspaceRoot)
    (h : (t.create ref context).result = .ok a) : (t.create ref context').result = .ok a := by
  obtain ⟨template, hget, hfactory⟩ := create_ok.1 h
  refine create_ok.2 ⟨template, hget, ?_⟩
  rw [ht template (get_mem hget).1 _ _ _ hroot, hfactory]

theorem Registry.builtin_datajets_ofWorkspace : Registry.builtin.datajets.OfWorkspace := by
  intro template hmem config context context' hroot
  simp only [Registry.builtin, List.mem_cons, List.not_mem_nil, or_false] at hmem
  rcases hmem with rfl | rfl | rfl
  · rfl
  · change fileFactory config context' = fileFactory config context
    rw [fileFactory, fileFactory, hroot]
  · rfl

theorem Registry.builtin_wrappers_ofWorkspace : Registry.builtin.wrappers.OfWorkspace := by
  intro template hmem config context context' hroot
  simp only [Registry.builtin, List.mem_cons, List.not_mem_nil, or_false] at hmem
  rcases hmem with rfl | rfl <;> rfl

theorem Node.generator?_rename (names : NodePath → Option String) (h : n.generator? = some g) :
    ∃ g', (n.rename names).generator? = some g' ∧ libraryGenerator g' = libraryGenerator g := by
  cases n with
  | stage s =>
    cases h
    exact ⟨_, rfl, rfl⟩
  | generator g =>
    cases h
    exact ⟨_, rfl, rfl⟩
  | synchronizer | wrap => cases h

theorem Registry.create_renamed (hmore : ∀ t ∈ more, IgnoresContext t.factory)
    (hctx : context.Renames names context')
    (h : ((withGenerators more).generators.create ref context).result = .ok g) :
    ((withGenerators more).generators.create ref context').result = .ok g := by
  obtain ⟨template, hget, hfactory⟩ := Templates.create_ok.1 h
  refine Templates.create_ok.2 ⟨template, hget, ?_⟩
  rcases get_withGenerators hmore hget with ⟨_, rfl⟩ | ⟨_, hignores⟩
  · obtain ⟨id, n, published, hid, hn, hpublished, rfl⟩ := libraryFactory_ok_iff.1 hfactory
    obtain ⟨published', hpublished', hsame⟩ := Node.generator?_rename names hpublished
    have hn' : context'.library.get? id = some (n.rename names) := by
      rw [hctx.get?, hn, Option.map_some]
    refine libraryFactory_ok_iff.2 ⟨id, n.rename names, published', hid, hn', hpublished', ?_⟩
    rw [entryGenerator_eq hpublished, entryGenerator_eq hpublished', hsame]
  · rw [hignores _ _ context, hfactory]

theorem Generator.Alike.rename {g' : Generator} (h : g.Alike g') :
    { g with name := g'.name } = g' := by
  rw [h.validate, h.batches]

theorem Generator.Alike.eq_libraryGenerator {g' : Generator} (h : g.Alike g')
    (hname : g.name = "library") : g = libraryGenerator g' := by
  rw [libraryGenerator, ← hname, ← h.validate, ← h.batches]

namespace Build

theorem libraryEntries_repick {registry : Registry} {library : List Schema} {index : Nat}
    {seen : List String}
    (h : (libraryEntries registry library context path index seen).result = .ok entries)
    (hnode : ∀ entry ∈ library.zipIdx index, ∀ n,
      (node registry entry.1 context (path.hop (.library entry.2))).result = .ok n →
      (node registry (entry.1.repick pick (path.hop (.library entry.2))) context'
        (path.hop (.library entry.2))).result = .ok (n.rename names)) :
    (libraryEntries registry
      (Schema.repickFrom pick library .library path index) context' path index
      seen).result = .ok (entries.map (Prod.map id (Node.rename names))) := by
  have hids : (entries.map (Prod.map id (Node.rename names))).map (·.1) = entries.map (·.1) :=
    List.map_map
  rw [libraryEntries_ok] at h ⊢
  obtain ⟨hpublishes, hnodup, hfresh⟩ := h
  rw [hids]
  refine ⟨?_, hnodup, hfresh⟩
  rw [Schema.zipIdx_repickFrom, List.forall₂_map_left_iff, List.forall₂_map_right_iff]
  apply forall₂_imp_mem hpublishes
  rintro ⟨entry, i⟩ hmem ⟨id, n⟩ ⟨hid, hn⟩
  refine ⟨?_, hnode _ hmem n hn⟩
  rw [Schema.repick_eq]
  exact hid

theorem childNodes_repick {registry : Registry} {children : List Schema} {index : Nat}
    {nodes : List Node}
    (h : (childNodes registry children context path index).result = .ok nodes)
    (hnode : ∀ c ∈ children.zipIdx index, ∀ n,
      (node registry c.1 context (path.hop (.children c.2))).result = .ok n →
      (node registry (c.1.repick pick (path.hop (.children c.2))) context'
        (path.hop (.children c.2))).result = .ok (n.rename names)) :
    (childNodes registry (Schema.repickFrom pick children .children path index) context' path
      index).result = .ok (nodes.map (Node.rename names)) := by
  rw [childNodes_ok] at h ⊢
  rw [Schema.zipIdx_repickFrom, List.forall₂_map_left_iff, List.forall₂_map_right_iff]
  exact forall₂_imp_mem h hnode

section

variable (hmore : ∀ t ∈ more, IgnoresContext t.factory)
  (hpick : ∀ place source, pick place = some source → root.RefersTo place source)
  (hnames : names = (Registry.withGenerators more).pickedName initial pick)

include hmore hpick hnames

theorem create_repicked (hs : root.Holds path s) (href : s.generator = some ref)
    (hsees : SeesSources more root (path :: NodePath.enclosing path.hops) context)
    (hctx : context.Renames names context')
    (h : ((Registry.withGenerators more).generators.create ref context).result = .ok g) :
    ((Registry.withGenerators more).generators.create ((pick path).getD ref) context').result =
      .ok { g with name := (names path).getD g.name } := by
  cases hpicked : pick path with
  | none =>
    rw [hnames, Registry.pickedName, hpicked]
    exact Registry.create_renamed hmore hctx h
  | some source =>
    obtain ⟨s', ref', hs', _, href', _, hleads⟩ := hpick path source hpicked
    cases hs'.at?_eq.symm.trans hs.at?_eq
    cases href'.symm.trans href
    -- what the reference made is traced to one source, and this is the source that is picked
    obtain ⟨source', made, hleads', hmade, halike⟩ := (Schema.traces_of_create hmore hsees h).1
    cases hleads.unique hleads'
    rw [hnames, Registry.pickedName, hpicked, Option.bind_some, hmade initial, Option.getD_some,
      hmade context']
    exact congrArg Except.ok halike.rename.symm

/-- The build of a schema whose stages take the generators that their references lead to makes
the same tree, but for the names of these generators. -/
theorem node_repick (hs : root.Holds path s)
    (hsees : SeesSources more root (NodePath.enclosing path.hops) context)
    (hctx : context.Renames names context')
    (h : (node (.withGenerators more) s context path).result = .ok n) :
    (node (.withGenerators more) (s.repick pick path) context' path).result =
      .ok (n.rename names) := by
  induction s using Schema.induction generalizing context context' path n with
  | node s ihl ihc ihw =>
    obtain ⟨spec, hspec, entries, library, h⟩ := node_ok.1 h
    have hfits := Schema.resolve_fits hspec
    have hin := sees_inside hmore hs hsees library
    -- the library comes first: to the plugins of the node, and inside it, its entries have
    -- other names too
    have hderived := hctx.derive s (s.repick pick path) entries
    apply node_ok.2 ⟨spec.repick pick path, Schema.resolve_repick hspec,
      entries.map (Prod.map id (Node.rename names)), _, _⟩
    · rw [Schema.library_repick]
      apply libraryEntries_repick library
      intro entry hmem n hn
      have hi := List.mem_zipIdx_iff_getElem?.1 hmem
      exact ihl entry.1 (List.mem_of_getElem? hi) (hs.library hi) hsees hctx hn
    cases spec with
    | stage ref datajet settings =>
      obtain ⟨g, hg, h⟩ := Traced.bind_ok.1 h
      obtain ⟨d, hd, h⟩ := Traced.bind_ok.1 h
      cases h
      have hg' := create_repicked hmore hpick hnames hs hfits.2.1 hin hderived hg
      have hd' := Registry.builtin_datajets_ofWorkspace.create hderived.workspaceRoot hd
      exact Traced.bind_ok.2 ⟨_, hg', Traced.bind_ok.2 ⟨d, hd', rfl⟩⟩
    | synchronizer children fan =>
      obtain ⟨nodes, hnodes, h⟩ := Traced.bind_ok.1 h
      cases h
      refine Traced.bind_ok.2 ⟨nodes.map (Node.rename names), ?_, ?_⟩
      · rw [Schema.children_repick]
        apply childNodes_repick hnodes
        intro c hmem n hn
        have hi := List.mem_zipIdx_iff_getElem?.1 hmem
        exact ihc c.1 (List.mem_of_getElem? hi) (hs.children hfits.1 hi) hin hderived hn
      · rw [Node.rename, Node.renameAll_eq]
        rfl
    | wrap w c =>
      obtain ⟨wrapper, hw, h⟩ := Traced.bind_ok.1 h
      obtain ⟨child, hchild, h⟩ := Traced.bind_ok.1 h
      cases h
      rw [childNode_some hfits.2] at hchild
      have hw' := Registry.builtin_wrappers_ofWorkspace.create hderived.workspaceRoot hw
      refine Traced.bind_ok.2 ⟨wrapper, hw', Traced.bind_ok.2 ⟨child.rename names, ?_, rfl⟩⟩
      rw [childNode_some (Schema.child_repick hfits.2)]
      exact ihw c hfits.2 (hs.child hfits.1 hfits.2) hin hderived hchild
    | generator ref =>
      obtain ⟨g, hg, h⟩ := Traced.bind_ok.1 h
      cases h
      -- only stages are picked
      have hunpicked : pick path = none := by
        cases hpicked : pick path with
        | none => rfl
        | some source =>
          obtain ⟨s', _, hs', hk, _⟩ := hpick path source hpicked
          cases hs'.at?_eq.symm.trans hs.at?_eq
          cases hk.symm.trans hfits.1
      refine Traced.bind_ok.2 ⟨g, ?_, rfl⟩
      rw [hunpicked]
      exact Registry.create_renamed hmore hderived hg

end

end Build

end

end DataPipeline
