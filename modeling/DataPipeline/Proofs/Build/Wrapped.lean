import DataPipeline.Proofs.Build.Moved
import DataPipeline.Proofs.Build.Scope
import Mathlib.Logic.Function.Basic

namespace DataPipeline

namespace NodePath

variable {place p : NodePath} {move : String → String}

/-- Where a place is when the node at another one is held by a new node: places in it are one
step further down, and all others are where they were. -/
def pushed (place p : NodePath) : NodePath :=
  if place.hops <:+ p.hops then
    ⟨p.hops.take (p.hops.length - place.hops.length) ++ .child :: place.hops⟩
  else p

theorem pushed_inner (place : NodePath) (inner : List Hop) :
    place.pushed ⟨inner ++ place.hops⟩ = ⟨inner ++ .child :: place.hops⟩ := by
  rw [pushed, if_pos (List.suffix_append inner place.hops), List.length_append,
    Nat.add_sub_cancel, List.take_left' rfl]

theorem pushed_outer (h : ¬place.hops <:+ p.hops) : place.pushed p = p := if_neg h

theorem suffix_pushed_inner (place : NodePath) (inner : List Hop) :
    place.hops <:+ inner ++ .child :: place.hops := by
  rw [← List.singleton_append, ← List.append_assoc]
  exact List.suffix_append _ _

theorem pushed_injective (place : NodePath) : place.pushed.Injective := by
  rintro ⟨hops⟩ ⟨hops'⟩ heq
  by_cases h : place.hops <:+ hops
  · obtain ⟨inner, rfl⟩ := h
    by_cases h' : place.hops <:+ hops'
    · obtain ⟨inner', rfl⟩ := h'
      rw [pushed_inner, pushed_inner] at heq
      rw [List.append_cancel_right (NodePath.mk.inj heq)]
    · rw [pushed_inner, pushed_outer h'] at heq
      cases heq
      exact absurd (suffix_pushed_inner place inner) h'
  · by_cases h' : place.hops <:+ hops'
    · obtain ⟨inner', rfl⟩ := h'
      rw [pushed_inner, pushed_outer h] at heq
      cases heq
      exact absurd (suffix_pushed_inner place inner') h
    · rwa [pushed_outer h, pushed_outer h'] at heq

/-- The text of a place becomes the text of where it is then; a text of no place stays. -/
noncomputable def push (place : NodePath) : String → String :=
  Function.extend text (fun p => (place.pushed p).text) id

theorem push_text (place p : NodePath) : place.push p.text = (place.pushed p).text :=
  Function.Injective.extend_apply (fun _ _ h => text_injective h) _ _ p

theorem push_of_ne {t : String} (h : ¬∃ p : NodePath, p.text = t) : place.push t = t :=
  Function.extend_apply' _ _ t h

theorem push_injective (place : NodePath) : place.push.Injective := by
  intro t t' heq
  by_cases h : ∃ p : NodePath, p.text = t
  · obtain ⟨p, rfl⟩ := h
    by_cases h' : ∃ p : NodePath, p.text = t'
    · obtain ⟨p', rfl⟩ := h'
      rw [push_text, push_text] at heq
      rw [place.pushed_injective (text_injective heq)]
    · rw [push_text, push_of_ne h'] at heq
      exact absurd ⟨_, heq⟩ h'
  · by_cases h' : ∃ p : NodePath, p.text = t'
    · obtain ⟨p', rfl⟩ := h'
      rw [push_of_ne h, push_text] at heq
      exact absurd ⟨_, heq.symm⟩ h
    · rwa [push_of_ne h, push_of_ne h'] at heq

theorem carries_child (place : NodePath) : Carries place.push place (place.hop .child) := by
  intro inner
  rw [push_text, pushed_inner]
  rfl

theorem carries_beside {h h' : Hop} (hin : (p.hop h).hops <:+ place.hops) (hne : h' ≠ h) :
    Carries place.push (p.hop h') (p.hop h') := by
  intro inner
  rw [push_text, pushed_outer]
  intro hsuffix
  exact hne (hop_eq_of_suffix (List.suffix_append _ _) (hin.trans hsuffix))

theorem push_outer {h : Hop} (hin : (p.hop h).hops <:+ place.hops) :
    place.push p.text = p.text := by
  rw [push_text, pushed_outer]
  intro hsuffix
  exact not_hop_suffix (hin.trans hsuffix)

end NodePath

namespace Schema

variable {s : Schema} {f : Schema → Schema} {h : Hop} {hops : List Hop}

/-- A node whose node behind a hop is changed. -/
def modifyBelow (f : Schema → Schema) (s : Schema) : Hop → Schema
  | .library i => { s with library := s.library.modify i f }
  | .children i => { s with children := s.children.modify i f }
  | .child => { s with child := s.child.map f }

/-- A schema whose node at the end of some hops is changed; the last hop comes first. -/
def modifyAt (f : Schema → Schema) : List Hop → Schema → Schema
  | [], s => f s
  | h :: outer, s => modifyAt (fun t => t.modifyBelow f h) outer s

/-- A node held by a passthrough. -/
def passthrough (s : Schema) : Schema where
  component := some "wrap"
  config := some (.object [("wrapper", .object [("name", .string "passthrough")])])
  child := some s

theorem below?_modifyBelow : (s.modifyBelow f h).below? h = (s.below? h).map f := by
  cases h with
  | library i => exact List.getElem?_modify_eq f i s.library
  | children i => exact List.getElem?_modify_eq f i s.children
  | child => rfl

theorem at?_modifyAt : (modifyAt f hops s).at? hops = (s.at? hops).map f := by
  induction hops generalizing f with
  | nil => rfl
  | cons h outer ih =>
    rw [modifyAt, at?, at?, ih, Option.bind_map, Option.map_bind]
    congr 1
    funext t
    exact below?_modifyBelow

theorem modifyAt_concat : modifyAt f (hops ++ [h]) s = s.modifyBelow (modifyAt f hops) h := by
  induction hops generalizing f with
  | nil => rfl
  | cons h' hops ih =>
    rw [List.cons_append, modifyAt, ih]
    rfl

theorem resolve_passthrough (path : String) :
    s.passthrough.resolve path = .ok (.wrap ⟨"passthrough", none⟩ s) := rfl

end Schema

namespace Build

variable {registry : Registry} {place path : NodePath} {c c' : BuildContext} {s : Schema}

theorem node_passthrough
    (hpass : ∀ c, (registry.wrappers.create ⟨"passthrough", none⟩ c).result =
      .ok passthroughWrapper) :
    (node registry s.passthrough c path).result =
      (node registry s (c.derive s.passthrough []) (path.hop .child)).result >>= fun n =>
        .ok (.wrap passthroughWrapper n) := by
  rw [node_eq, Schema.resolve_passthrough, Traced.result_bind, Traced.result_of]
  change (rest registry s.passthrough (c.derive s.passthrough []) path
    (.wrap ⟨"passthrough", none⟩ s)).result = _
  rw [rest, Traced.result_bind, hpass]
  exact Traced.result_bind

/-- What is built, or the error, is the same but for the places, as far as a run can tell. -/
def RunsAlike (registry : Registry) (move : String → String) : Except BuildError Node →
    Except BuildError Node → Prop :=
  ExceptRel (registry.Fails move) fun n n' => Execution.Moved move n.execute n'.execute

theorem runsAlike_of_moved {move : String → String} {x y : Except BuildError Node}
    (h : ExceptRel (registry.Fails move) (Node.Moved move) x y) : RunsAlike registry move x y :=
  h.imp (fun _ _ h => h) fun _ _ h => h.execute

theorem node_passthrough_alike (hr : registry.Moves place.push)
    (hpass : ∀ c, (registry.wrappers.create ⟨"passthrough", none⟩ c).result =
      .ok passthroughWrapper)
    (hc : c.Around place.push c') :
    RunsAlike registry place.push (node registry s c place).result
      (node registry s.passthrough c' place).result := by
  have hinside : c.Around place.push (c'.derive s.passthrough []) :=
    ⟨hc.dataRoot, hc.workspaceRoot, hc.library⟩
  have hsame := runsAlike_of_moved (node_moved hr s place.carries_child hinside)
  rw [node_passthrough hpass]
  generalize (node registry s c place).result = x at hsame ⊢
  generalize (node registry s (c'.derive s.passthrough []) (place.hop .child)).result =
    y at hsame ⊢
  cases hsame with
  | error h => exact .error h
  | ok h => exact .ok h

section

variable {h h' : Hop} (hr : registry.Moves place.push)
  (hin : (path.hop h).hops <:+ place.hops)
include hr hin

theorem node_beside (hc : c.Around place.push c') (hne : h' ≠ h) :
    ExceptRel (registry.Fails place.push) (Node.Moved place.push)
      (node registry s c (path.hop h')).result (node registry s c' (path.hop h')).result :=
  node_moved hr s (NodePath.carries_beside hin hne) hc

theorem libraryEntries_beside {library : List Schema} (hc : c.Around place.push c')
    (hne : ∀ i, .library i ≠ h) : ExceptRel (registry.Fails place.push)
      (List.Forall₂ fun e e' => e.1 = e'.1 ∧ e.2.Moved place.push e'.2)
      (libraryEntries registry library c path 0 []).result
      (libraryEntries registry library c' path 0 []).result := by
  apply libraryEntries_moved
  · intro i
    exact (NodePath.carries_beside hin (hne i)).text
  · intro entry _ i
    exact node_beside hr hin hc (hne i)

end

section

variable {f : Schema → Schema} (hr : registry.Moves place.push) (hc : c.Around place.push c')
include hr hc

/-- A synchronizer on the way runs alike if its child on the way does. -/
theorem node_modifyBelow_children {k : Nat} (hin : (path.hop (.children k)).hops <:+ place.hops)
    (hf : ∀ child d d', d.Around place.push d' → RunsAlike registry place.push
      (node registry child d (path.hop (.children k))).result
      (node registry (f child) d' (path.hop (.children k))).result) :
    RunsAlike registry place.push (node registry s c path).result
      (node registry (s.modifyBelow f (.children k)) c' path).result := by
  have hpath := (NodePath.push_outer hin).symm
  apply node_congr hr Node.congruence_execution hpath hc
  case hshell => rfl
  case hsome => rfl
  case hlibrary => exact libraryEntries_beside hr hin hc nofun
  case hchildren =>
    intro d d' hd
    apply childNodes_moved (List.length_modify _ _ _)
    intro i child child' hchild hchild'
    change (s.children.modify k f)[i]? = some child' at hchild'
    rw [List.getElem?_modify, hchild] at hchild'
    have heq : (if k = i then f child else child) = child' := Option.some.inj hchild'
    rw [Nat.zero_add, ← heq]
    split
    next hi =>
      subst hi
      exact hf child d d' hd
    next hi =>
      apply runsAlike_of_moved (node_beside hr hin hd _)
      exact fun heq => hi (Hop.children.inj heq).symm
  case hchild =>
    intro d d' hd
    apply childNode_moved hpath rfl
    intro child child' hchild hchild'
    cases hchild.symm.trans hchild'
    exact runsAlike_of_moved (node_beside hr hin hd nofun)

/-- A wrap on the way runs alike if its child does. -/
theorem node_modifyBelow_child (hin : (path.hop .child).hops <:+ place.hops)
    (hf : ∀ child d d', d.Around place.push d' → RunsAlike registry place.push
      (node registry child d (path.hop .child)).result
      (node registry (f child) d' (path.hop .child)).result) :
    RunsAlike registry place.push (node registry s c path).result
      (node registry (s.modifyBelow f .child) c' path).result := by
  have hpath := (NodePath.push_outer hin).symm
  apply node_congr hr Node.congruence_execution hpath hc
  case hshell => rfl
  case hsome => exact Option.isSome_map
  case hlibrary => exact libraryEntries_beside hr hin hc nofun
  case hchildren =>
    intro d d' hd
    apply childNodes_moved rfl
    intro i child child' hchild hchild'
    cases hchild.symm.trans hchild'
    exact runsAlike_of_moved (node_beside hr hin hd nofun)
  case hchild =>
    intro d d' hd
    apply childNode_moved hpath Option.isSome_map
    intro child child' hchild hchild'
    change s.child.map f = some child' at hchild'
    rw [hchild] at hchild'
    cases hchild'
    exact hf child d d' hd

end

/-- On the way from the root to a node that is wrapped, what is built runs alike. -/
theorem node_wrapped (hr : registry.Moves place.push)
    (hpass : ∀ c, (registry.wrappers.create ⟨"passthrough", none⟩ c).result =
      .ok passthroughWrapper)
    {inner : List Hop} (hplace : inner ++ path.hops = place.hops)
    (hinner : ∀ i, .library i ∉ inner) (hc : c.Around place.push c') :
    RunsAlike registry place.push (node registry s c path).result
      (node registry (s.modifyAt .passthrough inner) c' path).result := by
  -- from the last hop inwards, so that the path goes from the root towards the place
  induction inner using List.reverseRecOn generalizing s c c' path with
  | nil =>
    have hpath : path = place := congrArg NodePath.mk hplace
    subst hpath
    exact node_passthrough_alike hr hpass hc
  | append_singleton inner h ih =>
    rw [List.append_assoc] at hplace
    have hin : (path.hop h).hops <:+ place.hops := ⟨inner, hplace⟩
    have hrest : ∀ i, .library i ∉ inner := fun i hi => hinner i (List.mem_append_left _ hi)
    rw [Schema.modifyAt_concat]
    cases h with
    | library i => exact absurd (List.mem_append_right _ List.mem_cons_self) (hinner i)
    | children k => exact node_modifyBelow_children hr hc hin fun _ _ _ hd => ih hplace hrest hd
    | child => exact node_modifyBelow_child hr hc hin fun _ _ _ hd => ih hplace hrest hd

end Build

/-- Further plugins for which it makes no difference where a node stands. Their factories look
neither at the schema as a whole nor at the nodes inside their own one; and it is assumed of
their wrappers that they do nothing with their child but execute it. -/
def Registry.Unrooted (r : Registry) : Prop := ∀ place : NodePath, r.Moves place.push

theorem Registry.moved_of_passes_builtin {move : String → String} {e : BuildError}
    (h : Registry.builtin.Passes e) : e.moved move = e := by
  rcases h with ⟨template, hmem, config, context, h⟩ | ⟨template, hmem, config, context, h⟩ |
    ⟨template, hmem, config, context, h⟩
  · rcases builtin_generator hmem with rfl | ⟨_, hown⟩
    · obtain ⟨id, _, _, rfl⟩ := libraryFactory_error h
      rfl
    · exact absurd h (hown config context e)
  · exact absurd h (builtin_wrapper_own hmem config context e)
  · exact absurd h (builtin_datajet_own hmem config context e)

theorem Templates.passes_extend {α : Type} {t more : Templates α} {e : BuildError}
    (h : (t.extend more).Passes e) : t.Passes e ∨ more.Passes e := by
  obtain ⟨template, hmem, hfactory⟩ := h
  rcases List.mem_append.1 hmem with hmem | hmem
  · exact .inl ⟨template, hmem, hfactory⟩
  · exact .inr ⟨template, hmem, hfactory⟩

theorem Registry.passes_extend {r more : Registry} {e : BuildError}
    (h : (r.extend more).Passes e) :
    r.Passes e ∨ more.Passes e := by
  rcases h with h | h | h
  · exact (Templates.passes_extend h).imp .inl .inl
  · exact (Templates.passes_extend h).imp (.inr ∘ .inl) (.inr ∘ .inl)
  · exact (Templates.passes_extend h).imp (.inr ∘ .inr) (.inr ∘ .inr)

/-- A further sink, which drops every batch. -/
def dropPlugin : Registry where
  datajets := { kind := .datajet, templates := [⟨"drop", [], fun _ _ => .ok discardDatajet⟩] }

/-- A stage with the further sink that is run twice. -/
def droppedTwice : Schema where
  component := some "wrap"
  config := some (.object [("wrapper", .object [("name", .string "repeat")])])
  child := some { generator := some ⟨"increment", none⟩, datajet := some ⟨"drop", none⟩ }

theorem dropPlugin_unrooted : dropPlugin.Unrooted := by
  intro place
  constructor
  case generators => exact nofun
  case wrappers => exact nofun
  case datajets =>
    intro template hmem config c c' hc
    cases List.mem_singleton.1 hmem
    exact .ok (Datajet.moved_self (fun _ => trivial) fun _ _ _ => trivial)

/-- Factories that make the same whatever the schema as a whole is. -/
def Templates.Rootless {α : Type} (t : Templates α) : Prop :=
  ∀ template ∈ t.templates, ∀ config context root,
    template.factory config { context with rootSchema := root } =
      template.factory config context

structure Registry.Rootless (r : Registry) : Prop where
  generators : r.generators.Rootless
  wrappers : r.wrappers.Rootless
  datajets : r.datajets.Rootless

/-- A passthrough that is made only where no wrap is inside. -/
def innermostPlugin : Registry where
  wrappers :=
    { kind := .wrapper
      templates := [⟨"innermost", [], fun _ context =>
        if (context.localSchema.bind (·.child)).bind (·.component) = some "wrap" then
          .error (.own (.of "a wrap is inside"))
        else .ok { name := "innermost", execute := NodeView.execute }⟩] }

/-- A wrapper that tells what its child is and does not run it. -/
def previewPlugin : Registry where
  wrappers :=
    { kind := .wrapper
      templates := [⟨"preview", [], fun _ _ =>
        .ok
          { name := "preview"
            execute := fun child _ _ => .done { stage := child.descriptor } }⟩] }

/-- A stage in a wrap of some name. -/
def wrappedStage (wrapper : String) : Schema where
  component := some "wrap"
  config := some (.object [("wrapper", .object [("name", .string wrapper)])])
  child := some { generator := some ⟨"increment", none⟩, datajet := some ⟨"discard", none⟩ }

theorem innermostPlugin_rootless : innermostPlugin.Rootless where
  generators := nofun
  wrappers := by
    intro template hmem config context root
    cases List.mem_singleton.1 hmem
    rfl
  datajets := nofun

theorem previewPlugin_rootless : previewPlugin.Rootless where
  generators := nofun
  wrappers := by
    intro template hmem config context root
    cases List.mem_singleton.1 hmem
    rfl
  datajets := nofun

end DataPipeline
