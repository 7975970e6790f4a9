import DataPipeline.Plugin.Builtin
import DataPipeline.Proofs.Build.Sequence

namespace DataPipeline

namespace Schema

/-- The node that a hop leads to. -/
def below? (s : Schema) : Hop → Option Schema
  | .library i => s.library[i]?
  | .children i => s.children[i]?
  | .child => s.child

/-- The node at the end of some hops, of which the last comes first. -/
def at? (root : Schema) : List Hop → Option Schema
  | [] => some root
  | h :: outer => (root.at? outer).bind (·.below? h)

/-- The place in a node's own library at which an id is declared. -/
def declares? (root : Schema) (place : NodePath) (id : String) : Option NodePath :=
  (root.at? place.hops).bind fun s =>
    (s.library.findIdx? (·.referenceId = some id)).map fun i => place.hop (.library i)

/-- The innermost place at which an id is declared, where the first of the places is the
innermost. -/
def declaration? (root : Schema) (places : List NodePath) (id : String) : Option NodePath :=
  places.findSome? (root.declares? · id)

end Schema

/-- The places whose libraries can be seen at a node from the outside, the innermost first. An
entry sees what the node around it sees from the outside. -/
def NodePath.enclosing : List Hop → List NodePath
  | [] => []
  | .library _ :: outer => enclosing outer
  | .children _ :: outer => ⟨outer⟩ :: enclosing outer
  | .child :: outer => ⟨outer⟩ :: enclosing outer

/-- The plugins that a node refers to itself. -/
def Spec.plugins : Spec → List (PluginKind × PluginRef)
  | .stage g d _ => [(.generator, g), (.datajet, d)]
  | .synchronizer .. => []
  | .wrap w _ => [(.wrapper, w)]
  | .generator g => [(.generator, g)]

/-- A context sees some places of a schema: an id means the node that its innermost declaration
is built into, in a context that sees what can be seen there, and one without a declaration
means what it did before the build. -/
inductive Lexical (registry : Registry) (root : Schema) (initial : BuildContext) :
    List NodePath → BuildContext → Prop where
  | intro {places : List NodePath} {context : BuildContext} (inner : String → BuildContext)
      (dataRoot : context.dataRoot = initial.dataRoot)
      (workspaceRoot : context.workspaceRoot = initial.workspaceRoot)
      (rootSchema : context.rootSchema = some root)
      (free : ∀ id, root.declaration? places id = none →
        context.library.get? id = initial.library.get? id)
      (bound : ∀ id place, root.declaration? places id = some place →
        ∃ entry n, root.at? place.hops = some entry ∧ context.library.get? id = some n ∧
          (Build.node registry entry (inner id) place).result = .ok n)
      (lexical : ∀ id place, root.declaration? places id = some place →
        Lexical registry root initial (NodePath.enclosing place.hops) (inner id)) :
      Lexical registry root initial places context

namespace Schema

variable {root s : Schema} {place : NodePath} {places : List NodePath} {id : String}

theorem at?_hop {h : Hop} (hat : root.at? place.hops = some s) :
    root.at? (place.hop h).hops = s.below? h := by
  simp [NodePath.hop, at?, hat]

theorem declaration?_cons : root.declaration? (place :: places) id =
    (root.declares? place id).or (root.declaration? places id) := by
  rw [declaration?, List.findSome?_cons]
  cases root.declares? place id <;> rfl

theorem declares?_eq_none (h : root.at? place.hops = some s) :
    root.declares? place id = none ↔ ∀ entry ∈ s.library, entry.referenceId ≠ some id := by
  simp [declares?, h]

theorem declares?_eq_some {declared : NodePath} (h : root.at? place.hops = some s)
    (hd : root.declares? place id = some declared) :
    ∃ i entry, s.library[i]? = some entry ∧ entry.referenceId = some id ∧
      declared = place.hop (.library i) := by
  simp only [declares?, h, Option.bind_some, Option.map_eq_some_iff] at hd
  obtain ⟨i, hi, rfl⟩ := hd
  obtain ⟨hlt, hid, _⟩ := List.findIdx?_eq_some_iff_getElem.1 hi
  exact ⟨i, s.library[i], by simp, by simpa using hid, rfl⟩

theorem declaration?_eq_none : root.declaration? places id = none ↔
    ∀ place ∈ places, ∀ s, root.at? place.hops = some s →
      ∀ entry ∈ s.library, entry.referenceId ≠ some id := by
  rw [declaration?, List.findSome?_eq_none_iff]
  refine forall₂_congr fun place _ => ?_
  cases h : root.at? place.hops with
  | none => simp [declares?, h]
  | some s => simp [declares?_eq_none h]

end Schema

namespace Lexical

variable {registry : Registry} {root s : Schema} {initial context : BuildContext}
  {places : List NodePath} {path : NodePath} {entries : List (String × Node)}

theorem root_context (h : initial.rootSchema = none) :
    Lexical registry root initial [] (initial.withRoot root) := by
  refine .intro (fun _ => initial) rfl rfl ?_ (fun _ _ => rfl) nofun nofun
  simp [BuildContext.withRoot, h]

theorem derive_free {id : String} (hat : root.at? path.hops = some s)
    (library : (Build.libraryEntries registry s.library context path 0 []).result = .ok entries)
    (hd : root.declares? path id = none) :
    (context.derive s entries).library.get? id = context.library.get? id := by
  have hids : id ∉ entries.map (·.1) := by
    rw [Build.mem_published library]
    rintro ⟨entry, hmem, hid⟩
    exact (Schema.declares?_eq_none hat).1 hd entry hmem hid
  have hfind : entries.reverse.find? (·.1 = id) = none := by
    rw [List.find?_eq_none]
    intro published hmem
    have hin : published.1 ∈ entries.map (·.1) := List.mem_map_of_mem (List.mem_reverse.1 hmem)
    have hne : published.1 ≠ id := fun h => hids (h ▸ hin)
    simpa using hne
  rw [BuildContext.derive, Library.get?_overlay, hfind]
  rfl

theorem derive_bound {id : String} {declared : NodePath} (hat : root.at? path.hops = some s)
    (library : (Build.libraryEntries registry s.library context path 0 []).result = .ok entries)
    (hd : root.declares? path id = some declared) :
    ∃ entry n, root.at? declared.hops = some entry ∧
      (context.derive s entries).library.get? id = some n ∧
      (Build.node registry entry context declared).result = .ok n := by
  obtain ⟨i, entry, hi, hid, rfl⟩ := Schema.declares?_eq_some hat hd
  obtain ⟨published, hk, hid', hn⟩ := Build.published_of_getElem? library hi
  cases hid.symm.trans hid'
  rw [Nat.zero_add] at hn
  refine ⟨entry, published.2, ?_, ?_, hn⟩
  · rw [Schema.at?_hop hat]
    exact hi
  · exact Library.get?_overlay_of_mem (Build.libraryEntries_ok.1 library).2.1
      (List.mem_of_getElem? hk)

/-- A library that is built in the scope around its node makes the scope inside it. -/
theorem derive (h : Lexical registry root initial (NodePath.enclosing path.hops) context)
    (hat : root.at? path.hops = some s)
    (library : (Build.libraryEntries registry s.library context path 0 []).result =
      .ok entries) :
    Lexical registry root initial (path :: NodePath.enclosing path.hops)
      (context.derive s entries) := by
  have hout := h
  obtain ⟨inner, dataRoot, workspaceRoot, rootSchema, free, bound, lexical⟩ := h
  -- what this library declares is built in the context around it, all else where it was before
  let inner' (id : String) : BuildContext :=
    if (root.declares? path id).isSome then context else inner id
  refine .intro inner' dataRoot workspaceRoot rootSchema ?_ ?_ ?_
  · intro id hid
    rw [Schema.declaration?_cons, Option.or_eq_none_iff] at hid
    rw [derive_free hat library hid.1, free id hid.2]
  · intro id place hid
    rw [Schema.declaration?_cons] at hid
    cases hd : root.declares? path id with
    | none =>
      rw [hd, Option.none_or] at hid
      simp only [inner', hd, derive_free hat library hd]
      exact bound id place hid
    | some declared =>
      rw [hd, Option.some_or] at hid
      cases hid
      simp only [inner', hd]
      exact derive_bound hat library hd
  · intro id place hid
    rw [Schema.declaration?_cons] at hid
    cases hd : root.declares? path id with
    | none =>
      rw [hd, Option.none_or] at hid
      simp only [inner', hd]
      exact lexical id place hid
    | some declared =>
      rw [hd, Option.some_or] at hid
      cases hid
      obtain ⟨i, _, _, _, rfl⟩ := Schema.declares?_eq_some hat hd
      simp only [inner', hd]
      exact hout

theorem resolve_error {id : String} (h : Lexical registry root initial places context) :
    context.resolve id = .error (.referenceNotFound id) ↔
      root.declaration? places id = none ∧ initial.library.get? id = none := by
  obtain ⟨inner, _, _, _, free, bound, _⟩ := h
  have hget : context.resolve id = .error (.referenceNotFound id) ↔
      context.library.get? id = none := by
    rw [BuildContext.resolve]
    cases context.library.get? id <;> simp
  rw [hget]
  cases hd : root.declaration? places id with
  | none => simp [free id hd]
  | some place =>
    obtain ⟨_, n, _, hn, _⟩ := bound id place hd
    simp [hn]

end Lexical

namespace Build

variable {registry : Registry} {root s : Schema} {initial context : BuildContext}
  {path : NodePath} {call : FactoryCall}

/-- A factory call is made for a plugin of some node, in the scope inside the node. -/
def Scoped (registry : Registry) (root : Schema) (initial : BuildContext) (call : FactoryCall) :
    Prop :=
  ∃ place node spec kind ref, root.at? place.hops = some node ∧
    node.resolve place.text = .ok spec ∧ (kind, ref) ∈ spec.plugins ∧ call.name = ref.name ∧
    registry.mergedConfig kind ref = .ok call.config ∧ call.context.localSchema = some node ∧
    Lexical registry root initial (place :: NodePath.enclosing place.hops) call.context

/-- The calls that a node makes for its own plugins, and those inside it. -/
theorem mem_rest {spec : Spec} (hs : s.resolve path.text = .ok spec)
    (h : call ∈ (rest registry s context path spec).calls) :
    (∃ kind ref config tag, (kind, ref) ∈ spec.plugins ∧
        registry.mergedConfig kind ref = .ok config ∧ call = ⟨tag, ref.name, config, context⟩) ∨
      (∃ child ∈ s.children.zipIdx,
        call ∈ (node registry child.1 context (path.hop (.children child.2))).calls) ∨
      ∃ child, s.child = some child ∧
        call ∈ (node registry child context (path.hop .child)).calls := by
  have hfits := Schema.resolve_fits hs
  cases spec with
  | stage g d settings =>
    left
    rcases Traced.mem_bind.1 h with h | ⟨_, _, h⟩
    · obtain ⟨config, hc, rfl⟩ := Templates.mem_create h
      exact ⟨.generator, g, config, _, by simp [Spec.plugins], hc, rfl⟩
    rcases Traced.mem_bind.1 h with h | ⟨_, _, h⟩
    · obtain ⟨config, hc, rfl⟩ := Templates.mem_create h
      exact ⟨.datajet, d, config, _, by simp [Spec.plugins], hc, rfl⟩
    · cases h
  | synchronizer children fan =>
    rcases Traced.mem_bind.1 h with h | ⟨_, _, h⟩
    · exact .inr (.inl (mem_childNodes h))
    · cases h
  | wrap w c =>
    rcases Traced.mem_bind.1 h with h | ⟨_, _, h⟩
    · obtain ⟨config, hc, rfl⟩ := Templates.mem_create h
      exact .inl ⟨.wrapper, w, config, _, by simp [Spec.plugins], hc, rfl⟩
    rcases Traced.mem_bind.1 h with h | ⟨_, _, h⟩
    · rw [hfits.2] at h
      exact .inr (.inr ⟨c, hfits.2, h⟩)
    · cases h
  | generator g =>
    rcases Traced.mem_bind.1 h with h | ⟨_, _, h⟩
    · obtain ⟨config, hc, rfl⟩ := Templates.mem_create h
      exact .inl ⟨.generator, g, config, _, by simp [Spec.plugins], hc, rfl⟩
    · cases h

/-- The recursion over a schema keeps the scope of the position that it is at. -/
theorem scoped_of_mem (hat : root.at? path.hops = some s)
    (hl : Lexical registry root initial (NodePath.enclosing path.hops) context)
    (h : call ∈ (node registry s context path).calls) : Scoped registry root initial call := by
  induction s using Schema.induction generalizing context path with
  | node s ihl ihc ihw =>
    obtain ⟨spec, hs, h | ⟨entries, library, h⟩⟩ := mem_node.1 h
    · obtain ⟨⟨entry, i⟩, hmem, h⟩ := mem_libraryEntries h
      have hi := List.mem_zipIdx_iff_getElem?.1 hmem
      have hat' : root.at? (path.hop (.library i)).hops = some entry :=
        (Schema.at?_hop hat).trans hi
      exact ihl entry (List.mem_of_getElem? hi) hat' hl h
    have hin := hl.derive hat library
    rcases mem_rest hs h with ⟨kind, ref, config, tag, hp, hc, rfl⟩ | ⟨⟨child, i⟩, hmem, h⟩ |
      ⟨child, hchild, h⟩
    · exact ⟨path, s, spec, kind, ref, hat, hs, hp, rfl, hc, rfl, hin⟩
    · have hi := List.mem_zipIdx_iff_getElem?.1 hmem
      have hat' : root.at? (path.hop (.children i)).hops = some child :=
        (Schema.at?_hop hat).trans hi
      exact ihc child (List.mem_of_getElem? hi) hat' hin h
    · have hat' : root.at? (path.hop .child).hops = some child :=
        (Schema.at?_hop hat).trans hchild
      exact ihw child hchild hat' hin h

end Build

/-- Scoping is lexical. Every factory call of a build is made for a plugin of a node, which is
its local schema, and sees the node's library over what can be seen there from the outside; an
id cannot be resolved only if no library in that scope declares it and nothing was published
under it. -/
theorem buildPipeline_lexical (registry : Registry) (root : Schema) (initial : BuildContext)
    (h : initial.rootSchema = none) :
    ∀ call ∈ (buildPipeline registry root initial).calls,
      ∃ place node spec kind ref, root.at? place.hops = some node ∧
        node.resolve place.text = .ok spec ∧ (kind, ref) ∈ spec.plugins ∧ call.name = ref.name ∧
        registry.mergedConfig kind ref = .ok call.config ∧
        call.context.localSchema = some node ∧ call.context.rootSchema = some root ∧
        call.context.dataRoot = initial.dataRoot ∧
        call.context.workspaceRoot = initial.workspaceRoot ∧
        Lexical registry root initial (place :: NodePath.enclosing place.hops) call.context ∧
        ∀ id, call.context.resolve id = .error (.referenceNotFound id) ↔
          (∀ outer ∈ place :: NodePath.enclosing place.hops, ∀ s, root.at? outer.hops = some s →
            ∀ entry ∈ s.library, entry.referenceId ≠ some id) ∧
          initial.library.get? id = none := by
  intro call hcall
  obtain ⟨place, node, spec, kind, ref, hat, hs, hp, hname, hc, hlocal, hl⟩ :=
    Build.scoped_of_mem rfl (Lexical.root_context h) hcall
  refine ⟨place, node, spec, kind, ref, hat, hs, hp, hname, hc, hlocal, ?_⟩
  have hresolve (id : String) : call.context.resolve id = .error (.referenceNotFound id) ↔ _ :=
    hl.resolve_error
  simp only [Schema.declaration?_eq_none] at hresolve
  have hscope := hl
  obtain ⟨_, dataRoot, workspaceRoot, rootSchema, _, _, _⟩ := hl
  exact ⟨rootSchema, dataRoot, workspaceRoot, hscope, hresolve⟩

/-- A generator that refers to an entry of its own library, which hides one around it. -/
def shadowedReference : Schema where
  component := some "synchronizer"
  library := [.ofGenerator (some "a") ⟨"increment", none⟩]
  children := [{ Schema.ofGenerator none ⟨"library", some [("referenceId", .string "a")]⟩ with
    library := [.ofGenerator (some "a") ⟨"static", none⟩] }]

theorem buildPipeline_lexical_shadowed :
    (BuildContext.mk "" "" {} none none).rootSchema = none ∧
      ∃ call ∈
        (buildPipeline Registry.builtin shadowedReference (.mk "" "" {} none none)).calls,
        ∃ place node, shadowedReference.at? place.hops = some node ∧
          call.context.localSchema = some node ∧
          Lexical Registry.builtin shadowedReference (.mk "" "" {} none none)
            (place :: NodePath.enclosing place.hops) call.context := by
  have hlast : 2 < (buildPipeline Registry.builtin shadowedReference
      (.mk "" "" {} none none)).calls.length := by decide
  obtain ⟨place, node, _, _, _, hat, _, _, _, _, hlocal, _, _, _, hl, _⟩ :=
    buildPipeline_lexical Registry.builtin shadowedReference (.mk "" "" {} none none) rfl _
      (List.getElem_mem hlast)
  exact ⟨rfl, _, List.getElem_mem hlast, place, node, hat, hlocal, hl⟩

end DataPipeline
