import DataPipeline.Proofs.Build.Sequence
import DataPipeline.Proofs.Node.Moved

namespace DataPipeline

/-- Two errors, or two values, that are related. -/
inductive ExceptRel {ε ε' α β : Type} (Error : ε → ε' → Prop) (Value : α → β → Prop) :
    Except ε α → Except ε' β → Prop where
  | error {e e'} (h : Error e e') : ExceptRel Error Value (.error e) (.error e')
  | ok {a b} (h : Value a b) : ExceptRel Error Value (.ok a) (.ok b)

namespace ExceptRel

variable {ε ε' α β γ δ : Type} {Error Error' : ε → ε' → Prop} {Value Value' : α → β → Prop}
  {x : Except ε α} {y : Except ε' β}

theorem imp (h : ExceptRel Error Value x y) (herror : ∀ e e', Error e e' → Error' e e')
    (hvalue : ∀ a b, Value a b → Value' a b) : ExceptRel Error' Value' x y := by
  cases h with
  | error h => exact .error (herror _ _ h)
  | ok h => exact .ok (hvalue _ _ h)

theorem bind {Next : γ → δ → Prop} {f : α → Except ε γ} {g : β → Except ε' δ}
    (h : ExceptRel Error Value x y) (hf : ∀ a b, Value a b → ExceptRel Error Next (f a) (g b)) :
    ExceptRel Error Next (x >>= f) (y >>= g) := by
  cases h with
  | error h => exact .error h
  | ok h => exact hf _ _ h

theorem mapError {ε₁ ε₂ : Type} {Error' : ε₁ → ε₂ → Prop} {f : ε → ε₁} {g : ε' → ε₂}
    (h : ExceptRel Error Value x y) (hf : ∀ e e', Error e e' → Error' (f e) (g e')) :
    ExceptRel Error' Value (x.mapError f) (y.mapError g) := by
  cases h with
  | error h => exact .error (hf _ _ h)
  | ok h => exact .ok h

theorem refl {Error : ε → ε → Prop} (herror : ∀ e, Error e e) (x : Except ε α) :
    ExceptRel Error Eq x x := by
  cases x with
  | error e => exact .error (herror e)
  | ok a => exact .ok rfl

end ExceptRel

/-- An error that names the place that its own has moved to. -/
def BuildError.moved (move : String → String) : BuildError → BuildError
  | .malformedSchema path defect => .malformedSchema (move path) defect
  | .duplicateReference id path => .duplicateReference id (move path)
  | .unsupportedComponent component => .unsupportedComponent component
  | .pluginNotFound kind name available => .pluginNotFound kind name available
  | .duplicatePlugin kind name => .duplicatePlugin kind name
  | .referenceNotFound id => .referenceNotFound id
  | .pluginFactory kind name source => .pluginFactory kind name source

/-- A node without the nodes that it runs. -/
def Schema.shell (s : Schema) : Schema := { s with children := [], child := none }

section

variable (move : String → String)

/-- Contexts that publish the same nodes, at places that have moved. -/
structure BuildContext.Around (c c' : BuildContext) : Prop where
  dataRoot : c'.dataRoot = c.dataRoot
  workspaceRoot : c'.workspaceRoot = c.workspaceRoot
  library : List.Forall₂ (fun e e' => e.1 = e'.1 ∧ e.2.Moved move e'.2) c.library.entries
    c'.library.entries

/-- Contexts that differ in the schema as a whole, in the nodes that the own node runs, and in
the places of published nodes. -/
structure BuildContext.Moved (c c' : BuildContext) :
    Prop extends BuildContext.Around move c c' where
  localSchema : c'.localSchema.map Schema.shell = c.localSchema.map Schema.shell

/-- The same refusal; an error of the build may name the place that its own has moved to. -/
inductive Refusal.Moved : Refusal → Refusal → Prop where
  | own (c : Chain) : Refusal.Moved (.own c) (.own c)
  | build {e e' : BuildError} (h : e' = e.moved move ∨ e' = e) :
      Refusal.Moved (.build e) (.build e')

/-- Factories that make the same in contexts that differ only as they do when places move. -/
def Templates.Moves {α : Type} (Value : α → α → Prop) (t : Templates α) : Prop :=
  ∀ template ∈ t.templates, ∀ config c c', BuildContext.Moved move c c' →
    ExceptRel (Refusal.Moved move) Value (template.factory config c)
      (template.factory config c')

structure Registry.Moves (r : Registry) : Prop where
  generators : r.generators.Moves move (Generator.Moved move)
  wrappers : r.wrappers.Moves move (Wrapper.Moved move)
  datajets : r.datajets.Moves move (Datajet.Moved move)

end

/-- Some factory refuses with an error of the build. -/
def Templates.Passes {α : Type} (t : Templates α) (e : BuildError) : Prop :=
  ∃ template ∈ t.templates,
    ∃ config context, template.factory config context = .error (.build e)

def Registry.Passes (r : Registry) (e : BuildError) : Prop :=
  r.generators.Passes e ∨ r.wrappers.Passes e ∨ r.datajets.Passes e

/-- The same error at the place that its own has moved to, or one that a factory passes on. -/
def Registry.Fails (r : Registry) (move : String → String) (e e' : BuildError) : Prop :=
  e' = e.moved move ∨ e' = e ∧ r.Passes e

variable {move : String → String} {registry : Registry} {c c' : BuildContext}

theorem Templates.Moves.create {α : Type} {Value : α → α → Prop} {t : Templates α}
    {ref : PluginRef} (ht : t.Moves move Value) (hc : c.Moved move c') :
    ExceptRel (fun e e' => e' = e.moved move ∨ e' = e ∧ t.Passes e) Value
      (t.create ref c).result (t.create ref c').result := by
  unfold Templates.create
  cases hget : t.get ref.name with
  | error e =>
    have he := Templates.get_error hget
    subst he
    exact .error (.inl rfl)
  | ok template =>
    have hmem := (Templates.get_mem hget).1
    have hmade := ht template hmem (template.mergedConfig ref.config) c c' hc
    dsimp only
    generalize hx : template.factory (template.mergedConfig ref.config) c = x at hmade ⊢
    generalize template.factory (template.mergedConfig ref.config) c' = y at hmade ⊢
    cases hmade with
    | ok h => exact .ok h
    | error h =>
      cases h with
      | own chain => exact .error (.inl rfl)
      | build h =>
        rcases h with h | h
        · exact .error (.inl h)
        · exact .error (.inr ⟨h, template, hmem, _, _, hx⟩)

namespace Registry

theorem Moves.create_generator (hr : registry.Moves move) (hc : c.Moved move c')
    (ref : PluginRef) :
    ExceptRel (registry.Fails move) (Generator.Moved move)
      (registry.generators.create ref c).result (registry.generators.create ref c').result :=
  (hr.generators.create hc).imp (fun _ _ h => h.imp_right (And.imp_right .inl)) fun _ _ h => h

theorem Moves.create_wrapper (hr : registry.Moves move) (hc : c.Moved move c')
    (ref : PluginRef) :
    ExceptRel (registry.Fails move) (Wrapper.Moved move) (registry.wrappers.create ref c).result
      (registry.wrappers.create ref c').result :=
  (hr.wrappers.create hc).imp (fun _ _ h => h.imp_right (And.imp_right (.inr ∘ .inl)))
    fun _ _ h => h

theorem Moves.create_datajet (hr : registry.Moves move) (hc : c.Moved move c')
    (ref : PluginRef) :
    ExceptRel (registry.Fails move) (Datajet.Moved move) (registry.datajets.create ref c).result
      (registry.datajets.create ref c').result :=
  (hr.datajets.create hc).imp (fun _ _ h => h.imp_right (And.imp_right (.inr ∘ .inr)))
    fun _ _ h => h

end Registry

/-- The templates of a kind followed by others. -/
def Templates.extend {α : Type} (t more : Templates α) : Templates α :=
  { t with templates := t.templates ++ more.templates }

/-- A registry with further plugins. -/
def Registry.extend (r more : Registry) : Registry where
  generators := r.generators.extend more.generators
  wrappers := r.wrappers.extend more.wrappers
  datajets := r.datajets.extend more.datajets

theorem Templates.Moves.extend {α : Type} {Value : α → α → Prop} {t more : Templates α}
    (ht : t.Moves move Value) (hmore : more.Moves move Value) :
    (t.extend more).Moves move Value := by
  intro template hmem
  rcases List.mem_append.1 hmem with hmem | hmem
  · exact ht template hmem
  · exact hmore template hmem

theorem Registry.Moves.extend {r more : Registry} (hr : r.Moves move)
    (hmore : more.Moves move) :
    (r.extend more).Moves move where
  generators := hr.generators.extend hmore.generators
  wrappers := hr.wrappers.extend hmore.wrappers
  datajets := hr.datajets.extend hmore.datajets

theorem Refusal.moved_self (r : Refusal) : r.Moved move r := by
  cases r with
  | own c => exact .own c
  | build e => exact .build (.inr rfl)

theorem exceptRel_of_eq {α : Type} {Value : α → α → Prop} {x y : Except Refusal α} (heq : y = x)
    (hself : ∀ a, x = .ok a → Value a a) : ExceptRel (Refusal.Moved move) Value x y := by
  subst heq
  cases y with
  | error r => exact .error r.moved_self
  | ok a => exact .ok (hself a rfl)

theorem BuildContext.Around.get? (h : c.Around move c') (id : String) :
    Option.Rel (Node.Moved move) (c.library.get? id) (c'.library.get? id) := by
  have hentries := h.library
  rw [Library.get?, Library.get?]
  generalize c.library.entries = entries at hentries ⊢
  generalize c'.library.entries = entries' at hentries ⊢
  induction hentries with
  | nil => exact .none
  | @cons e e' entries entries' he hentries ih =>
    rw [List.find?_cons, List.find?_cons, ← he.1]
    split
    · exact .some he.2
    · exact ih

theorem libraryFactory_moved (h : c.Around move c') (config : Fields) :
    ExceptRel (Refusal.Moved move) (Generator.Moved move) (libraryFactory config c)
      (libraryFactory config c') := by
  unfold libraryFactory
  apply ExceptRel.bind (.refl Refusal.moved_self (ofConfig referenceShape config))
  rintro id _ rfl
  have hresolve : ExceptRel (Refusal.Moved move) (Node.Moved move)
      ((c.resolve id).mapError Refusal.build) ((c'.resolve id).mapError Refusal.build) := by
    have hget := h.get? id
    rw [BuildContext.resolve, BuildContext.resolve]
    generalize c.library.get? id = found at hget ⊢
    generalize c'.library.get? id = found' at hget ⊢
    cases hget with
    | none => exact .error (.build (.inr rfl))
    | some h => exact .ok h
  apply ExceptRel.bind hresolve
  intro n n' hn
  have hgenerator := hn.generator?
  cases hg : n.generator? with
  | none =>
    cases hg' : n'.generator? with
    | none =>
      dsimp only
      rw [hn.kind_eq]
      exact .error (.own _)
    | some g' =>
      rw [hg, hg'] at hgenerator
      cases hgenerator
  | some g =>
    cases hg' : n'.generator? with
    | none =>
      rw [hg, hg'] at hgenerator
      cases hgenerator
    | some g' =>
      rw [hg, hg'] at hgenerator
      cases hgenerator with
      | some hmoved =>
        dsimp only
        rw [entryGenerator_eq hg, entryGenerator_eq hg']
        exact .ok hmoved.library

theorem Registry.builtin_moves : Registry.builtin.Moves move where
  generators := by
    intro template hmem config c c' hc
    simp only [Registry.builtin, List.mem_cons, List.not_mem_nil, or_false] at hmem
    rcases hmem with rfl | rfl | rfl
    · apply exceptRel_of_eq rfl
      intro g hg
      obtain ⟨settings, _, hg⟩ := except_bind_ok.1 hg
      split at hg
      · cases hg
      · cases hg
        exact (incrementGenerator_silent settings).moved
    · apply exceptRel_of_eq rfl
      intro g hg
      obtain ⟨settings, _, hg⟩ := except_bind_ok.1 hg
      cases hg
      exact (staticGenerator_silent settings).moved
    · exact libraryFactory_moved hc.toAround config
  wrappers := by
    intro template hmem config c c' hc
    have hmade : ∀ w, template.factory config c = .ok w → Registry.builtin.wrappers.Makes w :=
      fun w hw => ⟨template, hmem, config, c, hw⟩
    simp only [Registry.builtin, List.mem_cons, List.not_mem_nil, or_false] at hmem
    have heq : template.factory config c' = template.factory config c := by
      rcases hmem with rfl | rfl <;> rfl
    apply exceptRel_of_eq heq
    intro w hw
    rcases makes_builtin_wrapper (hmade w hw) with rfl | ⟨times, _, rfl⟩
    · exact passthroughWrapper_moved
    · exact repeatWrapper_moved times
  datajets := by
    intro template hmem config c c' hc
    have hmade : ∀ d, template.factory config c = .ok d → Registry.builtin.datajets.Makes d :=
      fun d hd => ⟨template, hmem, config, c, hd⟩
    simp only [Registry.builtin, List.mem_cons, List.not_mem_nil, or_false] at hmem
    have heq : template.factory config c' = template.factory config c := by
      rcases hmem with rfl | rfl | rfl
      · rfl
      · dsimp only
        rw [fileFactory, fileFactory, hc.workspaceRoot]
      · rfl
    apply exceptRel_of_eq heq
    intro d hd
    obtain ⟨file?, hwrites⟩ := Build.makes_builtin_writes (hmade d hd)
    exact Datajet.moved_self (fun ctx => (hwrites.ofPlugin ctx).1)
      fun earlier batch ctx => (hwrites.ofPlugin ctx).2 earlier batch

end DataPipeline
