import DataPipeline.Lock.Basic
import DataPipeline.Proofs.Check.Visits
import DataPipeline.Proofs.Node.Place

namespace DataPipeline

/-- A node as a lock pins it, together with the nodes that it holds. -/
inductive Outline where
  | node (component : ComponentKind) (referenceId : Option String) (plugins : List PluginLock)
      (library children : List Outline) (child : Option Outline)

namespace Outline

/-- The node that a hop leads to. -/
def below? : Outline → Hop → Option Outline
  | node _ _ _ library _ _, .library i => library[i]?
  | node _ _ _ _ children _, .children i => children[i]?
  | node _ _ _ _ _ child, .child => child

/-- The entry of a node at a place. -/
def entry : Outline → NodePath → NodeLock
  | node component referenceId plugins _ _ _, path => ⟨path, component, referenceId, plugins⟩

mutual

/-- The entries of a tree whose root is at a place. -/
def listed : Outline → NodePath → List NodeLock
  | node component referenceId plugins library children child, path =>
    ⟨path, component, referenceId, plugins⟩ :: (listedFrom library path .library 0 ++
      (listedFrom children path .children 0 ++ listedChild child path))

def listedFrom : List Outline → NodePath → (Nat → Hop) → Nat → List NodeLock
  | [], _, _, _ => []
  | t :: rest, path, hop, index =>
    t.listed (path.hop (hop index)) ++ listedFrom rest path hop (index + 1)

def listedChild : Option Outline → NodePath → List NodeLock
  | none, _ => []
  | some t, path => t.listed (path.hop .child)

end

/-- Induction over a tree, with a hypothesis for each node that a hop leads to. -/
@[elab_as_elim]
theorem induction {motive : Outline → Prop}
    (node : ∀ t : Outline, (∀ h u, t.below? h = some u → motive u) → motive t) (t : Outline) :
    motive t := by
  refine @Outline.rec motive (fun l => ∀ t ∈ l, motive t) (fun o => ∀ t, o = some t → motive t)
    ?_ ?_ ?_ ?_ ?_ t
  · intro component referenceId plugins library children child ihl ihc ihw
    apply node
    intro h u hu
    cases h with
    | library i => exact ihl u (List.mem_of_getElem? hu)
    | children i => exact ihc u (List.mem_of_getElem? hu)
    | child => exact ihw u hu
  · exact List.forall_mem_nil _
  · intro first rest ihfirst ihrest
    exact List.forall_mem_cons.2 ⟨ihfirst, ihrest⟩
  · nofun
  · rintro t iht _ ⟨⟩
    exact iht

variable {t t' u : Outline} {n : NodeLock} {path : NodePath} {h : Hop}

theorem mem_listedFrom {ts : List Outline} {hop : Nat → Hop} {index : Nat} :
    n ∈ listedFrom ts path hop index ↔
      ∃ i, ∃ t : Outline, ts[i]? = some t ∧ n ∈ t.listed (path.hop (hop (index + i))) := by
  induction ts generalizing index with
  | nil => simp [listedFrom]
  | cons t ts ih =>
    rw [listedFrom, List.mem_append, ih]
    constructor
    · rintro (hn | ⟨i, u, hu, hn⟩)
      · exact ⟨0, t, rfl, hn⟩
      · refine ⟨i + 1, u, hu, ?_⟩
        rwa [show index + (i + 1) = index + 1 + i by omega]
    · rintro ⟨i, u, hu, hn⟩
      cases i with
      | zero =>
        cases hu
        exact .inl hn
      | succ i =>
        rw [show index + (i + 1) = index + 1 + i by omega] at hn
        exact .inr ⟨i, u, hu, hn⟩

theorem mem_listedChild {child : Option Outline} :
    n ∈ listedChild child path ↔ ∃ t, child = some t ∧ n ∈ t.listed (path.hop .child) := by
  cases child <;> simp [listedChild]

/-- The entries of the nodes that the root of a tree holds. -/
def held : Outline → NodePath → List NodeLock
  | node _ _ _ library children child, path =>
    listedFrom library path .library 0 ++ (listedFrom children path .children 0 ++
      listedChild child path)

theorem listed_eq : t.listed path = t.entry path :: t.held path := by
  cases t
  rfl

theorem mem_held :
    n ∈ t.held path ↔ ∃ h u, t.below? h = some u ∧ n ∈ u.listed (path.hop h) := by
  obtain ⟨component, referenceId, plugins, library, children, child⟩ := t
  simp only [held, List.mem_append, mem_listedFrom, mem_listedChild, Nat.zero_add]
  constructor
  · rintro (⟨i, u, hu, hn⟩ | ⟨i, u, hu, hn⟩ | ⟨u, hu, hn⟩)
    · exact ⟨.library i, u, hu, hn⟩
    · exact ⟨.children i, u, hu, hn⟩
    · exact ⟨.child, u, hu, hn⟩
  · rintro ⟨h, u, hu, hn⟩
    cases h with
    | library i => exact .inl ⟨i, u, hu, hn⟩
    | children i => exact .inr (.inl ⟨i, u, hu, hn⟩)
    | child => exact .inr (.inr ⟨u, hu, hn⟩)

theorem mem_listed : n ∈ t.listed path ↔
    n = t.entry path ∨ ∃ h u, t.below? h = some u ∧ n ∈ u.listed (path.hop h) := by
  rw [listed_eq, List.mem_cons, mem_held]

theorem entry_mem_listed : t.entry path ∈ t.listed path := mem_listed.2 (.inl rfl)

theorem path_entry : (t.entry path).path = path := by
  cases t
  rfl

theorem suffix_of_mem (hn : n ∈ t.listed path) : path.hops <:+ n.path.hops := by
  induction t using Outline.induction generalizing path with
  | node t ih =>
    rcases mem_listed.1 hn with heq | ⟨h, u, hu, hn⟩
    · have hpath : n.path = path := by rw [heq, path_entry]
      exact hpath ▸ List.suffix_rfl
    · exact (List.suffix_cons h path.hops).trans (ih h u hu hn)

theorem eq_entry (hn : n ∈ t.listed path) (hpath : n.path = path) : n = t.entry path := by
  rcases mem_listed.1 hn with rfl | ⟨h, u, hu, hn⟩
  · rfl
  · have hsuffix := suffix_of_mem hn
    rw [hpath] at hsuffix
    exact absurd hsuffix NodePath.not_hop_suffix

theorem mem_listed_hop (hs : (path.hop h).hops <:+ n.path.hops) :
    n ∈ t.listed path ↔ ∃ u, t.below? h = some u ∧ n ∈ u.listed (path.hop h) := by
  rw [mem_listed]
  constructor
  · rintro (rfl | ⟨h', u, hu, hn⟩)
    · rw [path_entry] at hs
      exact absurd hs NodePath.not_hop_suffix
    · cases NodePath.hop_eq_of_suffix hs (suffix_of_mem hn)
      exact ⟨u, hu, hn⟩
  · rintro ⟨u, hu, hn⟩
    exact .inr ⟨h, u, hu, hn⟩

theorem ext (hentry : t.entry path = t'.entry path) (hbelow : ∀ h, t.below? h = t'.below? h) :
    t = t' := by
  obtain ⟨component, referenceId, plugins, library, children, child⟩ := t
  obtain ⟨component', referenceId', plugins', library', children', child'⟩ := t'
  cases hentry
  have hlibrary : library = library' := List.ext_getElem? fun i => hbelow (.library i)
  have hchildren : children = children' := List.ext_getElem? fun i => hbelow (.children i)
  have hchild : child = child' := hbelow .child
  rw [hlibrary, hchildren, hchild]

theorem below?_of_listed (hsame : ∀ n, n ∈ t.listed path ↔ n ∈ t'.listed path)
    (hu : t.below? h = some u) :
    ∃ u', t'.below? h = some u' ∧
      ∀ n, n ∈ u.listed (path.hop h) ↔ n ∈ u'.listed (path.hop h) := by
  have hthere : u.entry (path.hop h) ∈ t'.listed path :=
    (hsame _).1 (mem_listed.2 (.inr ⟨h, u, hu, entry_mem_listed⟩))
  rw [mem_listed_hop (suffix_of_mem entry_mem_listed)] at hthere
  obtain ⟨u', hu', _⟩ := hthere
  refine ⟨u', hu', fun n => ?_⟩
  by_cases hs : (path.hop h).hops <:+ n.path.hops
  · have hn := hsame n
    rw [mem_listed_hop hs, mem_listed_hop hs, hu, hu'] at hn
    simpa using hn
  · exact ⟨fun hn => absurd (suffix_of_mem hn) hs, fun hn => absurd (suffix_of_mem hn) hs⟩

theorem eq_of_listed (hsame : ∀ n, n ∈ t.listed path ↔ n ∈ t'.listed path) : t = t' := by
  induction t using Outline.induction generalizing t' path with
  | node t ih =>
    have hentry : t.entry path = t'.entry path :=
      eq_entry ((hsame _).1 entry_mem_listed) path_entry
    apply ext hentry
    intro h
    cases hu : t.below? h with
    | some u =>
      obtain ⟨u', hu', hsame'⟩ := below?_of_listed hsame hu
      rw [ih h u hu hsame', hu']
    | none =>
      cases hu' : t'.below? h with
      | none => rfl
      | some u' =>
        obtain ⟨u, hu'', _⟩ := below?_of_listed (fun n => (hsame n).symm) hu'
        cases hu.symm.trans hu''

theorem path_ne_of_hop_ne {h' : Hop} {n' : NodeLock} (hne : h ≠ h')
    (hn : n ∈ t.listed (path.hop h)) (hn' : n' ∈ t'.listed (path.hop h')) :
    n.path ≠ n'.path := by
  intro heq
  have hs := suffix_of_mem hn
  rw [heq] at hs
  exact hne (NodePath.hop_eq_of_suffix hs (suffix_of_mem hn'))

theorem pairwise_listedFrom {ts : List Outline} (path : NodePath)
    {hop : Nat → Hop} (index : Nat) (hhop : ∀ i j, hop i = hop j → i = j)
    (hts : ∀ t ∈ ts, ∀ path, (t.listed path).Pairwise fun n n' => n.path ≠ n'.path) :
    (listedFrom ts path hop index).Pairwise fun n n' => n.path ≠ n'.path := by
  induction ts generalizing index with
  | nil => exact .nil
  | cons t ts ih =>
    rw [List.forall_mem_cons] at hts
    rw [listedFrom, List.pairwise_append]
    refine ⟨hts.1 _, ih _ hts.2, ?_⟩
    intro n hn n' hn'
    obtain ⟨i, u, _, hn'⟩ := mem_listedFrom.1 hn'
    apply path_ne_of_hop_ne _ hn hn'
    intro heq
    have hindex := hhop _ _ heq
    omega

theorem pairwise_listed (t : Outline) (path : NodePath) :
    (t.listed path).Pairwise fun n n' => n.path ≠ n'.path := by
  induction t using Outline.induction generalizing path with
  | node t ih =>
    obtain ⟨component, referenceId, plugins, library, children, child⟩ := t
    have hlibrary :
        ∀ t ∈ library, ∀ path, (t.listed path).Pairwise fun n n' => n.path ≠ n'.path := by
      intro t ht
      obtain ⟨i, hi⟩ := List.mem_iff_getElem?.1 ht
      exact ih (.library i) t hi
    have hchildren : ∀ t ∈ children, ∀ path,
        (t.listed path).Pairwise fun n n' => n.path ≠ n'.path := by
      intro t ht
      obtain ⟨i, hi⟩ := List.mem_iff_getElem?.1 ht
      exact ih (.children i) t hi
    have hchild : (listedChild child path).Pairwise fun n n' => n.path ≠ n'.path := by
      cases child with
      | none => exact .nil
      | some u => exact ih .child u rfl _
    rw [listed_eq, List.pairwise_cons]
    constructor
    · intro n hn heq
      obtain ⟨h, u, _, hn⟩ := mem_held.1 hn
      have hsuffix := suffix_of_mem hn
      rw [← heq, path_entry] at hsuffix
      exact NodePath.not_hop_suffix hsuffix
    rw [held, List.pairwise_append, List.pairwise_append]
    refine ⟨pairwise_listedFrom path 0 (fun _ _ => Hop.library.inj) hlibrary,
      ⟨pairwise_listedFrom path 0 (fun _ _ => Hop.children.inj) hchildren, hchild, ?_⟩, ?_⟩
    · intro n hn n' hn'
      obtain ⟨i, _, _, hn⟩ := mem_listedFrom.1 hn
      obtain ⟨_, _, hn'⟩ := mem_listedChild.1 hn'
      apply path_ne_of_hop_ne _ hn hn'
      nofun
    · intro n hn n' hn'
      obtain ⟨i, _, _, hn⟩ := mem_listedFrom.1 hn
      rcases List.mem_append.1 hn' with hn' | hn'
      · obtain ⟨j, _, _, hn'⟩ := mem_listedFrom.1 hn'
        apply path_ne_of_hop_ne _ hn hn'
        nofun
      · obtain ⟨_, _, hn'⟩ := mem_listedChild.1 hn'
        apply path_ne_of_hop_ne _ hn hn'
        nofun

end Outline

/-- A plugin as a lock pins it: digested are its kind, its name and its merged settings as
compact JSON. -/
def Registry.pin? (registry : Registry) : PluginKind × PluginRef → Option PluginLock
  | (kind, ref) => (registry.mergedConfig kind ref).toOption.map fun config =>
    let pinned := kind.name ++ ref.name ++ (Json.object config).compact
    ⟨kind, ref.name, Sha256.hex pinned.toUTF8.toList⟩

namespace Schema

mutual

/-- The tree of the nodes that a schema holds; none if one of them does not resolve or has a
plugin that is not there. -/
def outline? (registry : Registry) : Schema → Option Outline
  | ⟨component, referenceId, library, config, children, child, generator, datajet, stage⟩ => do
    let schema : Schema :=
      ⟨component, referenceId, library, config, children, child, generator, datajet, stage⟩
    let spec ← (schema.resolve NodePath.root.text).toOption
    let pins ← spec.plugins.mapM registry.pin?
    let entries ← outlines? registry library
    match spec with
    | .synchronizer _ _ => do
      let inner ← outlines? registry children
      some (.node spec.kind referenceId pins entries inner none)
    | .wrap _ _ => do
      let inner ← outlineChild? registry child
      some (.node spec.kind referenceId pins entries [] inner)
    | .stage .. | .generator _ => some (.node spec.kind referenceId pins entries [] none)

def outlines? (registry : Registry) : List Schema → Option (List Outline)
  | [] => some []
  | s :: rest => do
    let first ← outline? registry s
    let others ← outlines? registry rest
    some (first :: others)

def outlineChild? (registry : Registry) : Option Schema → Option (Option Outline)
  | none => some none
  | some child => (outline? registry child).map some

end

end Schema

namespace Lock

open Outline (listedFrom listedChild)

theorem toOption_plugin (registry : Registry) (kind : PluginKind) (ref : PluginRef) :
    (plugin registry kind ref).toOption = registry.pin? (kind, ref) := by
  rw [plugin, Registry.pin?]
  cases registry.mergedConfig kind ref <;> rfl

theorem toOption_plugins (registry : Registry) (spec : Spec) :
    (plugins registry spec).toOption = spec.plugins.mapM registry.pin? := by
  cases spec with
  | stage | wrap | generator =>
    simp only [plugins, toOption_bind, toOption_plugin, Spec.plugins, List.mapM_cons,
      List.mapM_nil, Option.bind_eq_bind, Option.bind_assoc, Option.pure_def, Option.bind_some]
    rfl
  | synchronizer => rfl

mutual

/-- A lock lists the tree of a schema. -/
theorem toOption_node (registry : Registry) : ∀ (s : Schema) (path : NodePath),
    (node registry s path).toOption = (s.outline? registry).map (·.listed path)
  | ⟨component, referenceId, library, config, children, child, generator, datajet, stage⟩,
      path => by
    rw [node, Schema.outline?]
    simp only [toOption_bind, toOption_nodes registry library, toOption_plugins]
    rw [Schema.toOption_resolve _ path.text NodePath.root.text]
    simp only [Option.bind_eq_bind, Option.map_bind, Option.bind_map, Function.comp_def]
    congr 1
    funext spec
    congr 1
    funext pins
    congr 1
    funext entries
    cases spec with
    | stage | generator =>
      simp [Outline.listed, listedFrom, listedChild, bind, Except.bind, Except.toOption]
    | synchronizer inner fan =>
      rw [toOption_bind, toOption_nodes registry children]
      cases Schema.outlines? registry children with
      | none => rfl
      | some inner => simp [Outline.listed, listedChild, Except.toOption]
    | wrap w c =>
      rw [toOption_bind, toOption_childNode registry child]
      cases Schema.outlineChild? registry child with
      | none => rfl
      | some inner => simp [Outline.listed, listedFrom, Except.toOption]

theorem toOption_nodes (registry : Registry) :
    ∀ (l : List Schema) (path : NodePath) (hop : Nat → Hop) (index : Nat),
      (nodes registry l path hop index).toOption =
        (Schema.outlines? registry l).map (listedFrom · path hop index)
  | [], _, _, _ => rfl
  | s :: rest, path, hop, index => by
    rw [nodes, Schema.outlines?]
    simp only [toOption_bind, toOption_node registry s, toOption_nodes registry rest,
      Option.bind_eq_bind, Option.map_bind, Option.bind_map, Function.comp_def]
    rfl

theorem toOption_childNode (registry : Registry) : ∀ (c : Option Schema) (path : NodePath),
    (childNode registry c path).toOption =
      (Schema.outlineChild? registry c).map (listedChild · path)
  | none, _ => rfl
  | some c, path => by
    rw [childNode, Schema.outlineChild?, toOption_node registry c, Option.map_map]
    rfl

end

end Lock

namespace Schema

variable {registry : Registry} {root s : Schema} {t : Outline} {place : NodePath}

theorem resolve_kind {path : String} {spec : Spec} (h : s.resolve path = .ok spec) :
    s.kind = .ok spec.kind := by
  have hfits := resolve_fits h
  cases spec with
  | stage | synchronizer | wrap => exact hfits.1
  | generator => exact hfits.1

/-- The node that a hop leads to, if the kind of this one lets it hold a node there. -/
def held? (s : Schema) : Hop → Option Schema
  | .library i => s.library[i]?
  | .children i => if s.kind.toOption = some .synchronizer then s.children[i]? else none
  | .child => if s.kind.toOption = some .wrap then s.child else none

theorem Holds.hop {h : Hop} {s' : Schema} (hs : root.Holds place s)
    (hheld : s.held? h = some s') :
    root.Holds (place.hop h) s' := by
  cases h with
  | library i => exact .library hs hheld
  | children i =>
    obtain ⟨hk, hi⟩ := Option.ite_none_right_eq_some.1 hheld
    exact .children hs (toOption_eq_some.1 hk) hi
  | child =>
    obtain ⟨hk, hc⟩ := Option.ite_none_right_eq_some.1 hheld
    exact .child hs (toOption_eq_some.1 hk) hc

theorem outlines?_getElem? {l : List Schema} {ts : List Outline}
    (h : outlines? registry l = some ts) (i : Nat) :
    Option.Rel (fun s t => s.outline? registry = some t) l[i]? ts[i]? := by
  induction l generalizing ts i with
  | nil =>
    cases h
    exact .none
  | cons s l ih =>
    rw [outlines?] at h
    obtain ⟨first, hfirst, h⟩ := Option.bind_eq_some_iff.1 h
    obtain ⟨others, hothers, h⟩ := Option.bind_eq_some_iff.1 h
    cases h
    cases i with
    | zero => exact .some hfirst
    | succ i => exact ih hothers i

theorem outlineChild?_rel {c : Option Schema} {t? : Option Outline}
    (h : outlineChild? registry c = some t?) :
    Option.Rel (fun s t => s.outline? registry = some t) c t? := by
  cases c with
  | none =>
    cases h
    exact .none
  | some c =>
    obtain ⟨t, ht, rfl⟩ := Option.map_eq_some_iff.1 h
    exact .some ht

/-- What an entry of a lock says of a node. -/
structure PinnedBy (registry : Registry) (s : Schema) (n : NodeLock) : Prop where
  component : s.kind = .ok n.component
  referenceId : s.referenceId = n.referenceId
  plugins : ∃ spec, s.resolve n.path.text = .ok spec ∧
    spec.plugins.mapM registry.pin? = some n.plugins

/-- A tree of a schema says of its root what is true of it, and holds the trees of what it
holds. -/
theorem outline?_eq_some (h : s.outline? registry = some t) :
    (∀ path, s.PinnedBy registry (t.entry path)) ∧
      ∀ hop, Option.Rel (fun s t => s.outline? registry = some t) (s.held? hop)
        (t.below? hop) := by
  cases s
  rw [outline?] at h
  obtain ⟨spec, hs, h⟩ := Option.bind_eq_some_iff.1 h
  obtain ⟨pins, hp, h⟩ := Option.bind_eq_some_iff.1 h
  obtain ⟨entries, hl, h⟩ := Option.bind_eq_some_iff.1 h
  have hs := toOption_eq_some.1 hs
  have hk := resolve_kind hs
  cases spec with
  | stage | generator =>
    cases h
    refine ⟨fun path => ⟨hk, rfl, _, resolve_ok_of_path hs, hp⟩, fun hop => ?_⟩
    cases hop with
    | library i => exact outlines?_getElem? hl i
    | children | child =>
      rw [held?, hk]
      exact .none
  | synchronizer =>
    obtain ⟨inner, hi, h⟩ := Option.bind_eq_some_iff.1 h
    cases h
    refine ⟨fun path => ⟨hk, rfl, _, resolve_ok_of_path hs, hp⟩, fun hop => ?_⟩
    cases hop with
    | library i => exact outlines?_getElem? hl i
    | children i =>
      rw [held?, hk]
      exact outlines?_getElem? hi i
    | child =>
      rw [held?, hk]
      exact .none
  | wrap =>
    obtain ⟨inner, hi, h⟩ := Option.bind_eq_some_iff.1 h
    cases h
    refine ⟨fun path => ⟨hk, rfl, _, resolve_ok_of_path hs, hp⟩, fun hop => ?_⟩
    cases hop with
    | library i => exact outlines?_getElem? hl i
    | children i =>
      rw [held?, hk]
      exact .none
    | child =>
      rw [held?, hk]
      exact outlineChild?_rel hi

/-- Each node that a schema holds has a tree, which is a part of that of the schema. -/
theorem Holds.outline {tree : Outline} (h : root.Holds place s)
    (ht : root.outline? registry = some tree) :
    ∃ t, s.outline? registry = some t ∧ ∀ n ∈ t.listed place, n ∈ tree.listed .root := by
  have hbelow {s s' : Schema} {t : Outline} {place : NodePath} {hop : Hop}
      (ht : s.outline? registry = some t ∧ ∀ n ∈ t.listed place, n ∈ tree.listed .root)
      (hheld : s.held? hop = some s') :
      ∃ u, s'.outline? registry = some u ∧
        ∀ n ∈ u.listed (place.hop hop), n ∈ tree.listed .root := by
    have hrel := (outline?_eq_some ht.1).2 hop
    rw [hheld] at hrel
    generalize hu : t.below? hop = u? at hrel
    cases hrel with
    | some hs' =>
      refine ⟨_, hs', fun n hn => ht.2 n ?_⟩
      exact Outline.mem_listed.2 (.inr ⟨hop, _, hu, hn⟩)
  induction h with
  | root => exact ⟨tree, ht, fun _ hn => hn⟩
  | library _ hi ih =>
    obtain ⟨t, ht⟩ := ih
    exact hbelow ht hi
  | children _ hk hi ih =>
    obtain ⟨t, ht⟩ := ih
    apply hbelow ht
    rw [held?, if_pos (toOption_eq_some.2 hk), hi]
  | child _ hk hc ih =>
    obtain ⟨t, ht⟩ := ih
    apply hbelow ht
    rw [held?, if_pos (toOption_eq_some.2 hk), hc]

theorem holds_of_mem {n : NodeLock} (ht : s.outline? registry = some t)
    (hs : root.Holds place s) (hn : n ∈ t.listed place) :
    ∃ node, root.Holds n.path node ∧ node.PinnedBy registry n := by
  induction t using Outline.induction generalizing s place with
  | node t ih =>
    obtain ⟨hpinned, hrel⟩ := outline?_eq_some ht
    rcases Outline.mem_listed.1 hn with rfl | ⟨hop, u, hu, hn⟩
    · refine ⟨s, ?_, hpinned place⟩
      rwa [Outline.path_entry]
    · have hrel := hrel hop
      rw [hu] at hrel
      generalize hheld : s.held? hop = s? at hrel
      cases hrel with
      | some hs' => exact ih hop u hu hs' (hs.hop hheld) hn

end Schema

/-- An entry as it is written down, with the text of its place. -/
def NodeLock.written (n : NodeLock) :
    String × ComponentKind × Option String × List PluginLock :=
  (n.path.text, n.component, n.referenceId, n.plugins)

theorem NodeLock.written_injective {n n' : NodeLock} (h : n.written = n'.written) : n = n' := by
  obtain ⟨path, component, referenceId, plugins⟩ := n
  obtain ⟨path', component', referenceId', plugins'⟩ := n'
  obtain ⟨hpath, h⟩ := Prod.mk.inj h
  cases NodePath.text_injective hpath
  cases h
  rfl

/-- A lock determines the tree of a schema. Two locks are written in the same way if the trees
are the same, and only then. The entries of a lock are for different places, one for each node
that the schema holds, and the place of an entry leads to the node of which it speaks. -/
theorem lockSchema_determines (registry : Registry) (s s' : Schema)
    (nodes nodes' : List NodeLock) (h : lockSchema registry s = .ok nodes)
    (h' : lockSchema registry s' = .ok nodes') :
    (∃ tree tree', s.outline? registry = some tree ∧ s'.outline? registry = some tree' ∧
      (nodes.map NodeLock.written = nodes'.map NodeLock.written ↔ tree = tree')) ∧
    (nodes.map (·.path.text)).Nodup ∧
    (∀ place node, s.Holds place node → ∃ n ∈ nodes, n.path.text = place.text) ∧
    ∀ n ∈ nodes, ∀ place : NodePath, place.text = n.path.text →
      ∃ node, s.Holds place node ∧ s.at? place.hops = some node ∧ node.PinnedBy registry n := by
  have hlisted {s : Schema} {nodes : List NodeLock} (h : lockSchema registry s = .ok nodes) :
      ∃ tree, s.outline? registry = some tree ∧ tree.listed .root = nodes := by
    have h := toOption_eq_some.2 h
    rw [lockSchema, Lock.toOption_node] at h
    exact Option.map_eq_some_iff.1 h
  obtain ⟨tree, ht, rfl⟩ := hlisted h
  obtain ⟨tree', ht', rfl⟩ := hlisted h'
  refine ⟨⟨tree, tree', ht, ht', fun heq => ?_, fun heq => by rw [heq]⟩, ?_, ?_, ?_⟩
  · have hsame := List.map_injective_iff.2 (fun _ _ => NodeLock.written_injective) heq
    exact Outline.eq_of_listed fun n => by rw [hsame]
  · rw [List.Nodup, List.pairwise_map]
    apply (Outline.pairwise_listed tree .root).imp
    intro n n' hne heq
    exact hne (NodePath.text_injective heq)
  · intro place node hnode
    obtain ⟨t, _, hsub⟩ := hnode.outline ht
    exact ⟨t.entry place, hsub _ Outline.entry_mem_listed, by rw [Outline.path_entry]⟩
  · intro n hn place hplace
    cases NodePath.text_injective hplace
    obtain ⟨node, hnode, hpinned⟩ := Schema.holds_of_mem ht .root hn
    exact ⟨node, hnode, hnode.at?_eq, hpinned⟩

/-- A stage that hands out no records, some number of times. -/
def silentStage (times : Nat) : Schema where
  generator := some ⟨"static", some [("repeat", .nat times)]⟩
  datajet := some ⟨"discard", none⟩

/-- The entry of such a stage, with the digest of its generator. -/
def silentLock (hops : List Hop) (digest : String) : NodeLock :=
  ⟨⟨hops⟩, .stage, none, [⟨.generator, "static", digest⟩,
    ⟨.datajet, "discard", "7be41c4a2fc9989b2d8d3e78211008e766e3f4f1206e7e79cb4ceaa14fadfd58"⟩]⟩

/-- Stages that differ in one setting are told apart, and so are those that stand deeper. -/
theorem lockSchema_determines_nested :
    let once := "4cc6f16df5f98feb9d74a6782a9ae4b87b9f6d5fee1318ccd406e764c7c343eb"
    let twice := "37c5ac38061ade031dfe3ec58ebd94bde1d84be9da63bbda63c23f8574f2c772"
    let flat := synchronizerOf [] [silentStage 1, silentStage 2]
    let turned := synchronizerOf [] [silentStage 2, silentStage 1]
    let deep := synchronizerOf [] [silentStage 1, synchronizerOf [] [silentStage 2]]
    lockSchema Registry.builtin flat = .ok [⟨.root, .synchronizer, none, []⟩,
      silentLock [.children 0] once, silentLock [.children 1] twice] ∧
    lockSchema Registry.builtin turned = .ok [⟨.root, .synchronizer, none, []⟩,
      silentLock [.children 0] twice, silentLock [.children 1] once] ∧
    lockSchema Registry.builtin deep = .ok [⟨.root, .synchronizer, none, []⟩,
      silentLock [.children 0] once, ⟨⟨[.children 1]⟩, .synchronizer, none, []⟩,
      silentLock [.children 0, .children 1] twice] ∧
    flat.outline? Registry.builtin ≠ turned.outline? Registry.builtin ∧
    flat.outline? Registry.builtin ≠ deep.outline? Registry.builtin := by
  intro once twice flat turned deep
  have hflat : lockSchema Registry.builtin flat = .ok [⟨.root, .synchronizer, none, []⟩,
      silentLock [.children 0] once, silentLock [.children 1] twice] :=
    toOption_eq_some.1 (by decide +kernel)
  have hturned : lockSchema Registry.builtin turned = .ok [⟨.root, .synchronizer, none, []⟩,
      silentLock [.children 0] twice, silentLock [.children 1] once] :=
    toOption_eq_some.1 (by decide +kernel)
  have hdeep : lockSchema Registry.builtin deep = .ok [⟨.root, .synchronizer, none, []⟩,
      silentLock [.children 0] once, ⟨⟨[.children 1]⟩, .synchronizer, none, []⟩,
      silentLock [.children 0, .children 1] twice] :=
    toOption_eq_some.1 (by decide +kernel)
  refine ⟨hflat, hturned, hdeep, fun heq => ?_, fun heq => ?_⟩
  · obtain ⟨⟨tree, tree', ht, ht', hiff⟩, _⟩ :=
      lockSchema_determines Registry.builtin flat turned _ _ hflat hturned
    rw [ht, ht'] at heq
    exact absurd (hiff.2 (Option.some.inj heq)) (by decide +kernel)
  · obtain ⟨⟨tree, tree', ht, ht', hiff⟩, _⟩ :=
      lockSchema_determines Registry.builtin flat deep _ _ hflat hdeep
    rw [ht, ht'] at heq
    exact absurd (hiff.2 (Option.some.inj heq)) (by decide +kernel)

end DataPipeline
