import DataPipeline.Proofs.Build.Tree
import DataPipeline.Proofs.Build.Visible

namespace DataPipeline

/-- A factory that makes the same in every context. -/
def IgnoresContext {α : Type} (f : Factory α) : Prop :=
  ∀ config context context', f config context = f config context'

/-- The built-in registry with further generators. -/
def Registry.withGenerators (more : List (Template Generator)) : Registry :=
  { builtin with
    generators :=
      { builtin.generators with templates := builtin.generators.templates ++ more } }

/-- The id of the library entry that a reference names. -/
def PluginRef.entryId? (ref : PluginRef) : Option String :=
  (Fields.get? (Fields.merge [] (ref.config.getD [])) referenceKey).bind Json.asString?

/-- Followed from a place through the scopes around it, a reference leads to a generator that is
no library reference: it is one itself, or the generator of the entry that it names is followed
from there. -/
inductive Schema.Leads (root : Schema) : NodePath → PluginRef → PluginRef → Prop where
  | here {place ref} (h : ref.name ≠ "library") : Leads root place ref ref
  | there {place ref id declared entry next source} (hname : ref.name = "library")
      (hid : ref.entryId? = some id)
      (hdeclared : root.declaration? (place :: NodePath.enclosing place.hops) id =
        some declared)
      (hentry : root.at? declared.hops = some entry)
      (hkind : entry.kind = .ok .stage ∨ entry.kind = .ok .generator)
      (hnext : entry.generator = some next) (h : Leads root declared next source) :
      Leads root place ref source

/-- Generators that differ in their names only. -/
structure Generator.Alike (g g' : Generator) : Prop where
  validate : g.validate = g'.validate
  batches : g.batches = g'.batches

/-- A generator is one that a reference at a place leads to, which is made alike in every
context. -/
def Schema.Traces (registry : Registry) (root : Schema) (place : NodePath) (ref : PluginRef)
    (g : Generator) : Prop :=
  ∃ source made, root.Leads place ref source ∧
    (∀ context, (registry.generators.create source context).result = .ok made) ∧ g.Alike made

/-- What a node publishes is what the generator of its schema leads to. -/
def Node.TracedFrom (registry : Registry) (root : Schema) (place : NodePath)
    (n : Node) : Prop :=
  ∀ g, n.generator? = some g → ∃ entry ref, root.at? place.hops = some entry ∧
    (entry.kind = .ok .stage ∨ entry.kind = .ok .generator) ∧ entry.generator = some ref ∧
    root.Traces registry place ref g

/-- What can be seen from some places publishes what its references lead to. -/
abbrev SeesSources (more : List (Template Generator)) (root : Schema) :
    List NodePath → BuildContext → Prop :=
  Sees root (Node.TracedFrom (.withGenerators more) root)

/-- A call that a factory of the templates answers with an instance. -/
def Templates.Answers {α : Type} (t : Templates α) (call : FactoryCall) : Prop :=
  call.kind = t.kind ∧ ∃ template a, t.get call.name = .ok template ∧
    template.factory call.config call.context = .ok a

def Registry.Answers (registry : Registry) (call : FactoryCall) : Prop :=
  registry.generators.Answers call ∨ registry.wrappers.Answers call ∨
    registry.datajets.Answers call

variable {more : List (Template Generator)} {root s : Schema} {place path : NodePath}
  {context : BuildContext} {ref source source' : PluginRef} {g : Generator} {n : Node}

theorem Schema.Leads.name_ne (h : root.Leads place ref source) : source.name ≠ "library" := by
  induction h with
  | here h => exact h
  | there _ _ _ _ _ _ _ ih => exact ih

theorem Schema.Leads.unique (h : root.Leads place ref source)
    (h' : root.Leads place ref source') :
    source = source' := by
  induction h with
  | here hne =>
    cases h' with
    | here => rfl
    | there hname => exact absurd hname hne
  | there hname hid hdeclared hentry _ hnext _ ih =>
    cases h' with
    | here hne => exact absurd hname hne
    | there _ hid' hdeclared' hentry' _ hnext' h' =>
      cases hid.symm.trans hid'
      cases hdeclared.symm.trans hdeclared'
      cases hentry.symm.trans hentry'
      cases hnext.symm.trans hnext'
      exact ih h'

theorem Templates.answers_of_create {α : Type} {t : Templates α} {call : FactoryCall} {a : α}
    (h : (t.create ref context).result = .ok a) (hcall : call ∈ (t.create ref context).calls) :
    t.Answers call := by
  obtain ⟨template, hget, hfactory⟩ := create_ok.1 h
  obtain ⟨config, hconfig, rfl⟩ := mem_create hcall
  rw [mergedConfig, hget] at hconfig
  cases hconfig
  exact ⟨rfl, template, a, hget, hfactory⟩

namespace Build

theorem answers_of_mem {registry : Registry} {call : FactoryCall}
    (h : (node registry s context path).result = .ok n)
    (hcall : call ∈ (node registry s context path).calls) : registry.Answers call := by
  induction s using Schema.induction generalizing context path n with
  | node s ihl ihc ihw =>
    obtain ⟨spec, hspec, entries, library, h⟩ := node_ok.1 h
    have hfits := Schema.resolve_fits hspec
    obtain ⟨spec', hspec', hcall⟩ := mem_node.1 hcall
    cases hspec.symm.trans hspec'
    rcases hcall with hcall | ⟨entries', library', hcall⟩
    · obtain ⟨⟨entry, i⟩, hmem, hcall⟩ := mem_libraryEntries hcall
      have hi := List.mem_zipIdx_iff_getElem?.1 hmem
      obtain ⟨published, _, _, hn⟩ := published_of_getElem? library hi
      rw [Nat.zero_add] at hn
      exact ihl entry (List.mem_of_getElem? hi) hn hcall
    cases library.symm.trans library'
    cases spec with
    | stage g d settings =>
      obtain ⟨generator, hg, h⟩ := Traced.bind_ok.1 h
      obtain ⟨datajet, hd, _⟩ := Traced.bind_ok.1 h
      rcases Traced.mem_bind.1 hcall with hcall | ⟨_, _, hcall⟩
      · exact .inl (Templates.answers_of_create hg hcall)
      rcases Traced.mem_bind.1 hcall with hcall | ⟨_, _, hcall⟩
      · exact .inr (.inr (Templates.answers_of_create hd hcall))
      · cases hcall
    | synchronizer children fan =>
      obtain ⟨nodes, hnodes, _⟩ := Traced.bind_ok.1 h
      rcases Traced.mem_bind.1 hcall with hcall | ⟨_, _, hcall⟩
      · obtain ⟨⟨child, i⟩, hmem, hcall⟩ := mem_childNodes hcall
        have hi := List.mem_zipIdx_iff_getElem?.1 hmem
        obtain ⟨n, _, hn⟩ := becomes_of_getElem? hnodes hi
        rw [Becomes, Nat.zero_add] at hn
        exact ihc child (List.mem_of_getElem? hi) hn hcall
      · cases hcall
    | wrap w c =>
      obtain ⟨wrapper, hw, h⟩ := Traced.bind_ok.1 h
      obtain ⟨n, hn, _⟩ := Traced.bind_ok.1 h
      rw [childNode_some hfits.2] at hn
      rcases Traced.mem_bind.1 hcall with hcall | ⟨_, _, hcall⟩
      · exact .inr (.inl (Templates.answers_of_create hw hcall))
      rcases Traced.mem_bind.1 hcall with hcall | ⟨_, _, hcall⟩
      · rw [childNode_some hfits.2] at hcall
        exact ihw c hfits.2 hn hcall
      · cases hcall
    | generator g =>
      obtain ⟨generator, hg, _⟩ := Traced.bind_ok.1 h
      rcases Traced.mem_bind.1 hcall with hcall | ⟨_, _, hcall⟩
      · exact .inl (Templates.answers_of_create hg hcall)
      · cases hcall

end Build

theorem Registry.Answers.publishes {call : FactoryCall} (h : (withGenerators more).Answers call)
    (hkind : call.kind = .generator) (hname : call.name = "library") :
    ∃ id entry g, call.context.library.get? id = some entry ∧ entry.generator? = some g ∧
      libraryFactory call.config call.context = .ok (entryGenerator id entry) := by
  rcases h with ⟨_, template, g, hget, hfactory⟩ | ⟨hkind', _⟩ | ⟨hkind', _⟩
  · rw [hname] at hget
    cases hget
    obtain ⟨id, entry, published, _, hentry, hpublished, rfl⟩ :=
      libraryFactory_ok_iff.1 hfactory
    exact ⟨id, entry, published, hentry, hpublished, hfactory⟩
  · cases hkind.symm.trans hkind'
  · cases hkind.symm.trans hkind'

section

variable (hmore : ∀ t ∈ more, IgnoresContext t.factory)

include hmore

theorem Registry.get_withGenerators {name : String} {template : Template Generator}
    (h : (withGenerators more).generators.get name = .ok template) :
    name = "library" ∧ template = ⟨"library", [], libraryFactory⟩ ∨
      name ≠ "library" ∧ IgnoresContext template.factory := by
  by_cases hname : name = "library"
  · subst hname
    cases h
    exact .inl ⟨rfl, rfl⟩
  obtain ⟨hmem, rfl⟩ := Templates.get_mem h
  refine .inr ⟨hname, ?_⟩
  rcases List.mem_append.1 hmem with hmem | hmem
  · simp only [builtin, List.mem_cons, List.not_mem_nil, or_false] at hmem
    rcases hmem with rfl | rfl | rfl
    · exact fun _ _ _ => rfl
    · exact fun _ _ _ => rfl
    · exact absurd rfl hname
  · exact hmore template hmem

/-- What is made of a reference is what the reference leads to. -/
theorem Schema.traces_of_create
    (hsees : SeesSources more root (place :: NodePath.enclosing place.hops) context)
    (h : ((Registry.withGenerators more).generators.create ref context).result = .ok g) :
    root.Traces (.withGenerators more) place ref g ∧
    (ref.name = "library" → g.name = "library") := by
  obtain ⟨template, hget, hfactory⟩ := Templates.create_ok.1 h
  rcases Registry.get_withGenerators hmore hget with ⟨hname, rfl⟩ | ⟨hname, hignores⟩
  · obtain ⟨id, n, g', hid, hn, hg', rfl⟩ := libraryFactory_ok hfactory
    refine ⟨?_, fun _ => rfl⟩
    cases hdeclared : root.declaration? (place :: NodePath.enclosing place.hops) id with
    | none => cases hn.symm.trans (hsees.free id hdeclared)
    | some declared =>
      -- the entry was built before the reference to it, so its own generator is traced already
      obtain ⟨n', hn', htraced⟩ := hsees.bound id declared hdeclared
      cases hn.symm.trans hn'
      obtain ⟨entry, next, hentry, hkind, hnext, source, made, hleads, hmakes, halike⟩ :=
        htraced g' hg'
      have hentryId : ref.entryId? = some id := by
        change (Fields.get? (Fields.merge [] (ref.config.getD [])) referenceKey).bind _ = _
        rw [show Fields.get? (Fields.merge [] (ref.config.getD [])) referenceKey = _ from hid]
        rfl
      exact ⟨source, made, .there hname hentryId hdeclared hentry hkind hnext hleads, hmakes,
        halike.validate, halike.batches⟩
  · refine ⟨⟨ref, g, .here hname, fun context' => ?_, rfl, rfl⟩, fun h => absurd h hname⟩
    apply Templates.create_ok.2 ⟨template, hget, _⟩
    rw [hignores _ _ context, hfactory]

namespace Build

theorem tracedFrom_of_ok (hs : root.Holds path s)
    (hsees : SeesSources more root (NodePath.enclosing path.hops) context)
    (h : (node (.withGenerators more) s context path).result = .ok n) :
    n.TracedFrom (.withGenerators more) root path := by
  induction s using Schema.induction generalizing context path n with
  | node s ihl ihc ihw =>
    obtain ⟨entries, library, hmade⟩ := made_of_ok h
    have hin : SeesSources more root (path :: NodePath.enclosing path.hops)
        (context.derive s entries) := by
      apply hsees.derive hs.at?_eq library
      intro i entry n hi hn
      exact ihl entry (List.mem_of_getElem? hi) (hs.library hi) hsees hn
    intro g hg
    cases hmade with
    | stage hk href hmade =>
      cases hg
      exact ⟨s, _, hs.at?_eq, .inl hk, href, (Schema.traces_of_create hmore hin hmade).1⟩
    | generator hk href hmade =>
      cases hg
      exact ⟨s, _, hs.at?_eq, .inr hk, href, (Schema.traces_of_create hmore hin hmade).1⟩
    | synchronizer | wrap => cases hg

theorem sees_inside (hs : root.Holds path s)
    (hsees : SeesSources more root (NodePath.enclosing path.hops) context)
    {entries : List (String × Node)}
    (library : (libraryEntries (.withGenerators more) s.library context path 0 []).result =
      .ok entries) :
    SeesSources more root (path :: NodePath.enclosing path.hops)
      (context.derive s entries) := by
  apply hsees.derive hs.at?_eq library
  intro i entry n hi hn
  exact tracedFrom_of_ok hmore (hs.library hi) hsees hn

theorem traces_of_holds (h : (node (.withGenerators more) root context .root).result = .ok n)
    (hsees : SeesSources more root [] context) (hs : root.Holds place s)
    (hk : s.kind = .ok .stage) (href : s.generator = some ref) :
    ∃ g, root.Traces (.withGenerators more) place ref g := by
  obtain ⟨context', n', hsees', hn'⟩ := built_of_holds h hsees (tracedFrom_of_ok hmore) hs
  obtain ⟨entries, library, hmade⟩ := made_of_ok hn'
  have hin := sees_inside hmore hs hsees' library
  cases hmade with
  | stage _ href' hg =>
    cases href.symm.trans href'
    exact ⟨_, (Schema.traces_of_create hmore hin hg).1⟩
  | synchronizer hk' | wrap hk' | generator hk' => cases hk.symm.trans hk'

/-- The generator of a stage in a tree is what the reference of its schema leads to. -/
theorem traces_of_mem_stages (hs : root.Holds path s)
    (hsees : SeesSources more root (NodePath.enclosing path.hops) context)
    (h : (node (.withGenerators more) s context path).result = .ok n) {t : Stage}
    (ht : t ∈ n.stages) :
    ∃ s ref, root.Holds t.path s ∧ s.kind = .ok .stage ∧ s.generator = some ref ∧
      root.Traces (.withGenerators more) t.path ref t.generator ∧
      (ref.name = "library" → t.generator.name = "library") := by
  induction s using Schema.induction generalizing context path n with
  | node s ihl ihc ihw =>
    obtain ⟨entries, library, hmade⟩ := made_of_ok h
    have hin := sees_inside hmore hs hsees library
    cases hmade with
    | stage hk href hg =>
      cases List.mem_singleton.1 ht
      obtain ⟨htraces, hname⟩ := Schema.traces_of_create hmore hin hg
      exact ⟨s, _, hs, hk, href, htraces, hname⟩
    | synchronizer hk _ hnodes =>
      obtain ⟨c, hc, ht⟩ := Node.mem_stages_synchronizer.1 ht
      obtain ⟨i, child, hi, hn⟩ := child_of_mem_nodes hnodes hc
      exact ihc child (List.mem_of_getElem? hi) (hs.children hk hi) hin hn ht
    | wrap hk hc _ hn => exact ihw _ hc (hs.child hk hc) hin hn ht
    | generator => cases ht

end Build

end

end DataPipeline
