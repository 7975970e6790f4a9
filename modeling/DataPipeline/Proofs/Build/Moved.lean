import DataPipeline.Proofs.Plugin.Moved

namespace DataPipeline

variable {move : String → String} {registry : Registry} {c c' : BuildContext}

/-- Typed views that differ in the nodes inside only. -/
inductive Spec.Alike : Spec → Spec → Prop where
  | stage (g d settings) : Alike (.stage g d settings) (.stage g d settings)
  | synchronizer (children children' fan) :
      Alike (.synchronizer children fan) (.synchronizer children' fan)
  | wrap (w child child') : Alike (.wrap w child) (.wrap w child')
  | generator (g) : Alike (.generator g) (.generator g)

namespace Schema

variable {s s' : Schema} {path : String}

theorem require_moved {α : Type} (d : Defect) (v : Option α) :
    ExceptRel (fun e e' => e' = e.moved move) Eq (require path d v)
      (require (move path) d v) := by
  cases v with
  | none => exact .error rfl
  | some a => exact .ok rfl

theorem settings_moved {α : Type} (shape : Document.Shape α) (field : String)
    (v : Option Json) :
    ExceptRel (fun e e' => e' = e.moved move) Eq (settings shape path field v)
      (settings shape (move path) field v) := by
  unfold settings
  split
  · exact .ok rfl
  · exact .ok rfl
  · apply ExceptRel.mapError (.refl (fun _ => rfl) _)
    rintro f _ rfl
    rfl

theorem kind_moved :
    ExceptRel (fun e e' => e' = BuildError.moved move e) Eq s.kind s.kind := by
  cases hk : s.kind with
  | ok k => exact .ok rfl
  | error e =>
    obtain ⟨name, _, rfl⟩ := kind_error hk
    exact .error rfl

theorem wrapper_moved (config : Json) :
    ExceptRel (fun e e' => e' = e.moved move) Eq
      ((Document.readJsonValue wrapShape.read config).mapError fun f =>
        BuildError.malformedSchema path (.wrapConfig f.fault))
      ((Document.readJsonValue wrapShape.read config).mapError fun f =>
        BuildError.malformedSchema (move path) (.wrapConfig f.fault)) := by
  apply ExceptRel.mapError (.refl (fun _ => rfl) _)
  rintro f _ rfl
  rfl

theorem requireChild_moved (hchild : s'.child.isSome = s.child.isSome) :
    ExceptRel (fun e e' => e' = e.moved move) (fun _ _ => True)
      (require path .wrapWithoutChild s.child)
      (require (move path) .wrapWithoutChild s'.child) := by
  cases hc : s.child with
  | none =>
    rw [hc, Option.isSome_none, Option.isSome_eq_false_iff,
      Option.isNone_iff_eq_none] at hchild
    rw [hchild]
    exact .error rfl
  | some c =>
    rw [hc, Option.isSome_some, Option.isSome_iff_exists] at hchild
    obtain ⟨c', hc'⟩ := hchild
    rw [hc']
    exact .ok trivial

/-- What a node resolves to depends neither on its place nor on the nodes inside it. -/
theorem resolve_moved (hshell : s'.shell = s.shell)
    (hchild : s'.child.isSome = s.child.isSome) :
    ExceptRel (fun e e' => e' = e.moved move) Spec.Alike (s.resolve path)
      (s'.resolve (move path)) := by
  have hcomponent : s'.component = s.component := congrArg (·.component) hshell
  have hkind : s'.kind = s.kind := by rw [kind, kind, hcomponent]
  have hconfig : s'.config = s.config := congrArg (·.config) hshell
  have hgenerator : s'.generator = s.generator := congrArg (·.generator) hshell
  have hdatajet : s'.datajet = s.datajet := congrArg (·.datajet) hshell
  have hstage : s'.stage = s.stage := congrArg (·.stage) hshell
  unfold resolve
  rw [hkind]
  apply ExceptRel.bind kind_moved
  rintro k _ rfl
  cases k with
  | stage =>
    rw [hgenerator, hdatajet, hstage]
    apply ExceptRel.bind (require_moved _ _)
    rintro g _ rfl
    apply ExceptRel.bind (require_moved _ _)
    rintro d _ rfl
    apply ExceptRel.bind (settings_moved _ _ _)
    rintro settings _ rfl
    exact .ok (.stage g d settings)
  | synchronizer =>
    rw [hconfig]
    apply ExceptRel.bind (settings_moved _ _ _)
    rintro fan _ rfl
    split
    · exact .error rfl
    · exact .ok (.synchronizer _ _ fan)
  | wrap =>
    rw [hconfig]
    apply ExceptRel.bind (requireChild_moved hchild)
    intro child child' _
    apply ExceptRel.bind (require_moved _ _)
    rintro config _ rfl
    apply ExceptRel.bind (wrapper_moved config)
    rintro wrapper? _ rfl
    apply ExceptRel.bind (require_moved _ _)
    rintro wrapper _ rfl
    exact .ok (.wrap wrapper child child')
  | generator =>
    rw [hgenerator]
    apply ExceptRel.bind (require_moved _ _)
    rintro g _ rfl
    exact .ok (.generator g)

end Schema

/-- A place and all places inside it move to another place and those inside it. -/
def NodePath.Carries (move : String → String) (p p' : NodePath) : Prop :=
  ∀ inner, text ⟨inner ++ p'.hops⟩ = move (text ⟨inner ++ p.hops⟩)

namespace NodePath

variable {p p' : NodePath}

theorem Carries.text (h : Carries move p p') : p'.text = move p.text := h []

theorem Carries.hop (h : Carries move p p') (hop : Hop) :
    Carries move (p.hop hop) (p'.hop hop) := by
  intro inner
  have hinner := h (inner ++ [hop])
  rw [List.append_assoc, List.append_assoc] at hinner
  exact hinner

end NodePath

theorem BuildContext.Around.derive {s s' : Schema} {entries entries' : List (String × Node)}
    (h : c.Around move c') (hshell : s'.shell = s.shell)
    (hentries : List.Forall₂ (fun e e' => e.1 = e'.1 ∧ e.2.Moved move e'.2) entries entries') :
    (c.derive s entries).Moved move (c'.derive s' entries') where
  dataRoot := h.dataRoot
  workspaceRoot := h.workspaceRoot
  library := List.rel_append (List.rel_reverse hentries) h.library
  localSchema := congrArg some hshell

/-- A relation between nodes that are put together in the same way of related parts. -/
structure Node.Congruence (move : String → String) (Value : Node → Node → Prop) : Prop where
  stage : ∀ s s', s.Moved move s' → Value (.stage s) (.stage s')
  synchronizer : ∀ children children' fan, List.Forall₂ Value children children' →
    Value (.synchronizer children fan) (.synchronizer children' fan)
  wrap : ∀ w w' n n', w.Moved move w' → Value n n' → Value (.wrap w n) (.wrap w' n')
  generator : ∀ g g', g.Moved move g' → Value (.generator g) (.generator g')

theorem Node.congruence_moved : Node.Congruence move (Node.Moved move) where
  stage _ _ h := .stage h
  synchronizer _ _ _ h :=
    .synchronizer h.length_eq fun _ hmem => (List.forall₂_iff_zip.1 h).2 hmem
  wrap _ _ _ _ hw h := .wrap hw h
  generator _ _ h := .generator h

theorem Node.congruence_execution :
    Node.Congruence move fun n n' => Execution.Moved move n.execute n'.execute where
  stage _ _ h := (Node.Moved.stage h).execute
  synchronizer _ _ _ h := Execution.moved_synchronizer h
  wrap _ _ _ _ hw h := Execution.moved_wrap hw h
  generator _ _ h := (Node.Moved.generator h).execute

namespace Build

variable {path path' : NodePath} {Value : Node → Node → Prop} {s s' : Schema}

theorem libraryEntries_moved {library : List Schema} {index : Nat} {seen : List String}
    (hpath : ∀ i, (path'.hop (.library i)).text = move (path.hop (.library i)).text)
    (h : ∀ entry ∈ library, ∀ i, ExceptRel (registry.Fails move) (Node.Moved move)
      (node registry entry c (path.hop (.library i))).result
      (node registry entry c' (path'.hop (.library i))).result) :
    ExceptRel (registry.Fails move) (List.Forall₂ fun e e' => e.1 = e'.1 ∧ e.2.Moved move e'.2)
      (libraryEntries registry library c path index seen).result
      (libraryEntries registry library c' path' index seen).result := by
  induction library generalizing index seen with
  | nil => exact .ok .nil
  | cons entry library ih =>
    rw [List.forall_mem_cons] at h
    rw [libraryEntries, libraryEntries]
    split
    · rw [hpath]
      exact .error (.inl rfl)
    next id hid =>
      split
      · rw [hpath]
        exact .error (.inl rfl)
      · rw [Traced.result_bind, Traced.result_bind]
        apply ExceptRel.bind (h.1 _)
        intro n n' hn
        rw [Traced.result_bind, Traced.result_bind]
        apply ExceptRel.bind (ih h.2)
        intro entries entries' hentries
        exact .ok (.cons ⟨rfl, hn⟩ hentries)

theorem childNodes_moved {children children' : List Schema} {index : Nat}
    (hlength : children'.length = children.length)
    (h : ∀ i s s', children[i]? = some s → children'[i]? = some s' →
      ExceptRel (registry.Fails move) Value
        (node registry s c (path.hop (.children (index + i)))).result
        (node registry s' c' (path'.hop (.children (index + i)))).result) :
    ExceptRel (registry.Fails move) (List.Forall₂ Value)
      (childNodes registry children c path index).result
      (childNodes registry children' c' path' index).result := by
  induction children generalizing children' index with
  | nil =>
    rw [List.length_nil, List.length_eq_zero_iff] at hlength
    subst hlength
    exact .ok .nil
  | cons child children ih =>
    cases children' with
    | nil => cases hlength
    | cons child' children' =>
      rw [childNodes, childNodes, Traced.result_bind, Traced.result_bind]
      apply ExceptRel.bind (h 0 child child' rfl rfl)
      intro n n' hn
      have hrest : ExceptRel (registry.Fails move) (List.Forall₂ Value)
          (childNodes registry children c path (index + 1)).result
          (childNodes registry children' c' path' (index + 1)).result := by
        apply ih (Nat.succ.inj hlength)
        intro i s s' hs hs'
        rw [Nat.add_assoc, Nat.add_comm 1 i]
        exact h (i + 1) s s' hs hs'
      rw [Traced.result_bind, Traced.result_bind]
      apply ExceptRel.bind hrest
      intro nodes nodes' hnodes
      exact .ok (.cons hn hnodes)

theorem childNode_moved {child? child?' : Option Schema} (hpath : path'.text = move path.text)
    (hsome : child?'.isSome = child?.isSome)
    (h : ∀ s s', child? = some s → child?' = some s' → ExceptRel (registry.Fails move) Value
      (node registry s c (path.hop .child)).result
      (node registry s' c' (path'.hop .child)).result) :
    ExceptRel (registry.Fails move) Value (childNode registry child? c path).result
      (childNode registry child?' c' path').result := by
  cases child? with
  | none =>
    cases child?' with
    | none =>
      rw [childNode, childNode, hpath]
      exact .error (.inl rfl)
    | some s' => cases hsome
  | some s =>
    cases child?' with
    | none => cases hsome
    | some s' => exact h s s' rfl rfl

/-- What a node still needs is made of related parts. -/
theorem rest_moved (hr : registry.Moves move) (hV : Node.Congruence move Value)
    (hpath : path'.text = move path.text) (hc : c.Moved move c') {spec spec' : Spec}
    (hspec : spec.Alike spec')
    (hchildren : ExceptRel (registry.Fails move) (List.Forall₂ Value)
      (childNodes registry s.children c path 0).result
      (childNodes registry s'.children c' path' 0).result)
    (hchild : ExceptRel (registry.Fails move) Value
      (childNode registry s.child c path).result
      (childNode registry s'.child c' path').result) :
    ExceptRel (registry.Fails move) Value (rest registry s c path spec).result
      (rest registry s' c' path' spec').result := by
  cases hspec with
  | stage g d settings =>
    simp only [rest, Traced.result_bind]
    apply ExceptRel.bind (hr.create_generator hc g)
    intro g g' hg
    apply ExceptRel.bind (hr.create_datajet hc d)
    intro d d' hd
    exact .ok (hV.stage _ _ ⟨hpath, hg, hd, rfl⟩)
  | synchronizer _ _ fan =>
    simp only [rest, Traced.result_bind]
    apply ExceptRel.bind hchildren
    intro nodes nodes' hnodes
    exact .ok (hV.synchronizer _ _ fan hnodes)
  | wrap w =>
    simp only [rest, Traced.result_bind]
    apply ExceptRel.bind (hr.create_wrapper hc w)
    intro w w' hw
    apply ExceptRel.bind hchild
    intro n n' hn
    exact .ok (hV.wrap _ _ _ _ hw hn)
  | generator g =>
    simp only [rest, Traced.result_bind]
    apply ExceptRel.bind (hr.create_generator hc g)
    intro g g' hg
    exact .ok (hV.generator _ _ hg)

/-- Nodes that differ in the nodes they run are built alike if those are. -/
theorem node_congr (hr : registry.Moves move) (hV : Node.Congruence move Value)
    (hpath : path'.text = move path.text) (hc : c.Around move c') (hshell : s'.shell = s.shell)
    (hsome : s'.child.isSome = s.child.isSome)
    (hlibrary : ExceptRel (registry.Fails move)
      (List.Forall₂ fun e e' => e.1 = e'.1 ∧ e.2.Moved move e'.2)
      (libraryEntries registry s.library c path 0 []).result
      (libraryEntries registry s'.library c' path' 0 []).result)
    (hchildren : ∀ d d', d.Around move d' → ExceptRel (registry.Fails move) (List.Forall₂ Value)
      (childNodes registry s.children d path 0).result
      (childNodes registry s'.children d' path' 0).result)
    (hchild : ∀ d d', d.Around move d' → ExceptRel (registry.Fails move) Value
      (childNode registry s.child d path).result
      (childNode registry s'.child d' path').result) :
    ExceptRel (registry.Fails move) Value (node registry s c path).result
      (node registry s' c' path').result := by
  have hresolve : ExceptRel (registry.Fails move) Spec.Alike (s.resolve path.text)
      (s'.resolve path'.text) := by
    rw [hpath]
    exact (Schema.resolve_moved hshell hsome).imp (fun _ _ h => .inl h) fun _ _ h => h
  rw [node_eq, node_eq, Traced.result_bind, Traced.result_bind]
  apply ExceptRel.bind hresolve
  intro spec spec' hspec
  rw [Traced.result_bind, Traced.result_bind]
  apply ExceptRel.bind hlibrary
  intro entries entries' hentries
  have hinner := hc.derive hshell hentries
  exact rest_moved hr hV hpath hinner hspec (hchildren _ _ hinner.toAround)
    (hchild _ _ hinner.toAround)

/-- The same node is built alike at a place that has moved, in a context that publishes the
same. -/
theorem node_moved (hr : registry.Moves move) (s : Schema)
    (hpath : NodePath.Carries move path path') (hc : c.Around move c') :
    ExceptRel (registry.Fails move) (Node.Moved move) (node registry s c path).result
      (node registry s c' path').result := by
  induction s using Schema.induction generalizing c c' path path' with
  | node s ihl ihc ihw =>
    apply node_congr hr Node.congruence_moved hpath.text hc rfl rfl
    · apply libraryEntries_moved fun i => (hpath.hop (.library i)).text
      intro entry hentry i
      exact ihl entry hentry (hpath.hop _) hc
    · intro d d' hd
      apply childNodes_moved rfl
      intro i child child' hi hi'
      cases hi.symm.trans hi'
      exact ihc child (List.mem_of_getElem? hi) (hpath.hop _) hd
    · intro d d' hd
      apply childNode_moved hpath.text rfl
      intro child child' hchild hchild'
      cases hchild.symm.trans hchild'
      exact ihw child hchild (hpath.hop .child) hd

end Build

end DataPipeline
