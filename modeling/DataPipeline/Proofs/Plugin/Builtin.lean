import DataPipeline.Check.Finding
import DataPipeline.Plugin.Builtin
import DataPipeline.Proofs.Document.Values

namespace DataPipeline

namespace Templates

variable {α : Type} {t : Templates α} {ref : PluginRef} {context : BuildContext}

theorem get_error {name : String} {e : BuildError} (h : t.get name = .error e) :
    e = .pluginNotFound t.kind name t.known := by
  unfold get at h
  split at h
  · cases h
  · cases h
    rfl

theorem get_mem {name : String} {template : Template α} (h : t.get name = .ok template) :
    template ∈ t.templates ∧ template.name = name := by
  unfold get at h
  split at h
  next found =>
    cases h
    exact ⟨List.mem_of_find?_eq_some found, by simpa using List.find?_some found⟩
  · cases h

theorem create_ok {a : α} :
    (t.create ref context).result = .ok a ↔ ∃ template, t.get ref.name = .ok template ∧
      template.factory (template.mergedConfig ref.config) context = .ok a := by
  unfold create
  split
  next h => simp [Traced.error, h]
  next h => simp [h, mapError_ok]

theorem create_error {e : BuildError} :
    (t.create ref context).result = .error e ↔ t.get ref.name = .error e ∨
      ∃ template refusal, t.get ref.name = .ok template ∧
        template.factory (template.mergedConfig ref.config) context = .error refusal ∧
        t.refuse ref.name refusal = e := by
  unfold create
  split
  next h => simp [Traced.error, h]
  next h => simp [h, mapError_error]

theorem mergedConfig_ok {config : Fields} :
    t.mergedConfig ref = .ok config ↔
      ∃ template, t.get ref.name = .ok template ∧
        template.mergedConfig ref.config = config := by
  unfold mergedConfig
  cases t.get ref.name <;> simp [Except.map]

theorem mergedConfig_error {e : BuildError} :
    t.mergedConfig ref = .error e ↔ t.get ref.name = .error e := by
  unfold mergedConfig
  cases t.get ref.name <;> simp [Except.map]

end Templates

/-- A factory that fails with errors of its own only. -/
def OwnErrors {α : Type} (f : Factory α) : Prop :=
  ∀ config context e, f config context ≠ .error (.build e)

theorem ofConfig_own {α : Type} {shape : Document.Shape α} {config : Fields} {e : BuildError} :
    ofConfig shape config ≠ .error (.build e) := by
  intro h
  obtain ⟨_, _, h⟩ := mapError_error.1 h
  cases h

theorem incrementFactory_own : OwnErrors incrementFactory := by
  intro config context e h
  rcases except_bind_error.1 h with h | ⟨c, _, h⟩
  · exact ofConfig_own h
  · split at h <;> cases h

theorem staticFactory_own : OwnErrors staticFactory := by
  intro config context e h
  rcases except_bind_error.1 h with h | ⟨_, _, h⟩
  · exact ofConfig_own h
  · cases h

theorem stdoutFactory_own : OwnErrors stdoutFactory := by
  intro config context e h
  rcases except_bind_error.1 h with h | ⟨_, _, h⟩
  · exact ofConfig_own h
  · cases h

theorem fileFactory_own : OwnErrors fileFactory := by
  intro config context e h
  rcases except_bind_error.1 h with h | ⟨_, _, h⟩
  · exact ofConfig_own h
  · split at h <;> cases h

theorem repeatFactory_own : OwnErrors repeatFactory := by
  intro config context e h
  rcases except_bind_error.1 h with h | ⟨_, _, h⟩
  · exact ofConfig_own h
  · split at h <;> cases h

theorem builtin_datajet_own {template : Template Datajet}
    (h : template ∈ Registry.builtin.datajets.templates) : OwnErrors template.factory := by
  simp only [Registry.builtin, List.mem_cons, List.not_mem_nil, or_false] at h
  rcases h with rfl | rfl | rfl
  · exact stdoutFactory_own
  · exact fileFactory_own
  · intro _ _ _ h
    cases h

theorem builtin_wrapper_own {template : Template Wrapper}
    (h : template ∈ Registry.builtin.wrappers.templates) : OwnErrors template.factory := by
  simp only [Registry.builtin, List.mem_cons, List.not_mem_nil, or_false] at h
  rcases h with rfl | rfl
  · intro _ _ _ h
    cases h
  · exact repeatFactory_own

theorem builtin_generator {template : Template Generator}
    (h : template ∈ Registry.builtin.generators.templates) :
    template = ⟨"library", [], libraryFactory⟩ ∨
      template.name ≠ "library" ∧ OwnErrors template.factory := by
  simp only [Registry.builtin, List.mem_cons, List.not_mem_nil, or_false] at h
  rcases h with rfl | rfl | rfl
  · exact .inr ⟨by decide, incrementFactory_own⟩
  · exact .inr ⟨by decide, staticFactory_own⟩
  · exact .inl rfl

section Reference

open Document

variable {config : Fields} {r : Reading} {a a' : String} {seen seen' : List String}

/-- One field of a reference: it is the reference itself, for the first time, or it is passed
over. -/
theorem readEntries_reference_cons {key : String} {value : Json}
    (h : referenceShape.readEntries r a seen (Doc.ofFields ((key, value) :: config)) =
      .ok (a', seen')) :
    (key = referenceKey ∧ key ∉ seen ∧ ∃ id, value = .string id ∧
        referenceShape.readEntries r id (key :: seen) (Doc.ofFields config) = .ok (a', seen')) ∨
      key ≠ referenceKey ∧
        referenceShape.readEntries r a seen (Doc.ofFields config) = .ok (a', seen') := by
  rw [Doc.ofFields, Shape.readEntries, readText_string] at h
  by_cases hk : key = referenceKey
  · have hmem : key ∈ referenceShape.fields := by simp [referenceShape, hk, referenceKey]
    by_cases hseen : key ∈ seen
    · simp [bind, Except.bind, hmem, hseen, Reading.fail] at h
    · simp only [bind, Except.bind, hmem, hseen, ↓reduceIte] at h
      split at h
      · cases h
      next id hid =>
        exact .inl ⟨hk, hseen, id, readText_ofJson.1 hid, h⟩
  · have hmem :
        key ∉ referenceShape.fields := by simp [referenceShape, referenceKey] at hk ⊢; exact hk
    simp only [bind, Except.bind, hmem, ↓reduceIte] at h
    split at h
    · cases h
    · exact .inr ⟨hk, h⟩

theorem readEntries_reference_seen (hseen : referenceKey ∈ seen)
    (h : referenceShape.readEntries r a seen (Doc.ofFields config) = .ok (a', seen')) :
    a' = a := by
  induction config with
  | nil =>
    cases h
    rfl
  | cons field config ih =>
    rcases readEntries_reference_cons h with ⟨hk, hfresh, _⟩ | ⟨_, h⟩
    · exact absurd hseen (hk ▸ hfresh)
    · exact ih h

theorem readEntries_reference
    (h : referenceShape.readEntries r a seen (Doc.ofFields config) = .ok (a', seen')) :
    seen' = seen ∨ config.get? referenceKey = some (.string a') := by
  induction config with
  | nil =>
    cases h
    exact .inl rfl
  | cons field config ih =>
    obtain ⟨key, value⟩ := field
    rcases readEntries_reference_cons h with ⟨rfl, _, id, rfl, hrest⟩ | ⟨hk, h⟩
    · have he := readEntries_reference_seen List.mem_cons_self hrest
      subst he
      exact .inr (by simp [Fields.get?])
    · rcases ih h with h | h
      · exact .inl h
      · exact .inr (by simpa [Fields.get?, hk] using h)

theorem ofConfig_reference {id : String} (h : ofConfig referenceShape config = .ok id) :
    config.get? referenceKey = some (.string id) := by
  have h := mapError_ok.1 h
  unfold readJsonValue Shape.read at h
  simp only [Doc.ofJson, Reading.target] at h
  obtain ⟨inner, _, h⟩ := except_bind_ok.1 h
  obtain ⟨⟨a, seen⟩, hread, h⟩ := except_bind_ok.1 h
  obtain ⟨_, _, h⟩ := except_bind_ok.1 h
  rcases readEntries_reference hread with rfl | hfound
  · cases h
  · dsimp only at h
    split at h
    · cases h
    · cases h
      exact hfound

variable {context : BuildContext}

/-- A generator under the name of a reference to it. -/
def libraryGenerator (g : Generator) : Generator := { g with name := "library" }

theorem entryGenerator_eq {id : String} {entry : Node} {g : Generator}
    (h : entry.generator? = some g) : entryGenerator id entry = libraryGenerator g := by
  rw [entryGenerator, libraryGenerator]
  simp only [h]

theorem resolve_ok {id : String} {n : Node} :
    context.resolve id = .ok n ↔ context.library.get? id = some n := by
  rw [BuildContext.resolve]
  cases context.library.get? id <;> simp

theorem libraryFactory_ok_iff {g : Generator} : libraryFactory config context = .ok g ↔
    ∃ id entry g', ofConfig referenceShape config = .ok id ∧
      context.library.get? id = some entry ∧
      entry.generator? = some g' ∧ g = entryGenerator id entry := by
  constructor
  · intro h
    obtain ⟨id, hid, h⟩ := except_bind_ok.1 h
    obtain ⟨entry, hentry, h⟩ := except_bind_ok.1 h
    have hentry := resolve_ok.1 (mapError_ok.1 hentry)
    split at h
    next g' hg =>
      cases h
      exact ⟨id, entry, g', hid, hentry, hg, rfl⟩
    · cases h
  · rintro ⟨id, entry, g', hid, hentry, hg, rfl⟩
    refine except_bind_ok.2 ⟨id, hid, except_bind_ok.2 ⟨entry, ?_, ?_⟩⟩
    · exact mapError_ok.2 (resolve_ok.2 hentry)
    · simp only [hg]

theorem libraryFactory_ok {g : Generator} (h : libraryFactory config context = .ok g) :
    ∃ id node g', config.get? referenceKey = some (.string id) ∧
      context.library.get? id = some node ∧ node.generator? = some g' ∧
      g = libraryGenerator g' := by
  obtain ⟨id, node, g', hid, hnode, hg, rfl⟩ := libraryFactory_ok_iff.1 h
  exact ⟨id, node, g', ofConfig_reference hid, hnode, hg, entryGenerator_eq hg⟩

theorem libraryFactory_error {e : BuildError}
    (h : libraryFactory config context = .error (.build e)) :
    ∃ id, config.get? referenceKey = some (.string id) ∧ context.library.get? id = none ∧
      e = .referenceNotFound id := by
  rcases except_bind_error.1 h with h | ⟨id, hid, h⟩
  · exact absurd h ofConfig_own
  rcases except_bind_error.1 h with h | ⟨node, _, h⟩
  · obtain ⟨e', he', h⟩ := mapError_error.1 h
    cases h
    unfold BuildContext.resolve at he'
    split at he'
    · cases he'
    · cases he'
      exact ⟨id, ofConfig_reference hid, ‹_›, rfl⟩
  · split at h <;> cases h

end Reference

section Names

/-- What each of some templates makes has the name of the template. -/
def Templates.Naming {α : Type} (name : α → String) (t : Templates α) : Prop :=
  ∀ template ∈ t.templates, ∀ config context a,
    template.factory config context = .ok a → name a = template.name

theorem Templates.Naming.create {α : Type} {name : α → String} {t : Templates α}
    {ref : PluginRef} {context : BuildContext} {a : α} (ht : t.Naming name)
    (h : (t.create ref context).result = .ok a) : name a = ref.name := by
  obtain ⟨template, hget, hfactory⟩ := create_ok.1 h
  obtain ⟨hmem, hname⟩ := get_mem hget
  rw [ht template hmem _ _ a hfactory, hname]

/-- Each plugin of a registry has the name that it is registered under. -/
structure Registry.Naming (r : Registry) : Prop where
  generators : r.generators.Naming Generator.name
  wrappers : r.wrappers.Naming Wrapper.name
  datajets : r.datajets.Naming Datajet.name

theorem Registry.builtin_naming : Registry.builtin.Naming where
  generators := by
    intro template hmem config context g h
    simp only [Registry.builtin, List.mem_cons, List.not_mem_nil, or_false] at hmem
    rcases hmem with rfl | rfl | rfl
    · obtain ⟨c, _, h⟩ := except_bind_ok.1 h
      split at h <;> cases h
      rfl
    · obtain ⟨c, _, h⟩ := except_bind_ok.1 h
      cases h
      rfl
    · obtain ⟨_, _, _, _, _, _, rfl⟩ := libraryFactory_ok h
      rfl
  wrappers := by
    intro template hmem config context w h
    simp only [Registry.builtin, List.mem_cons, List.not_mem_nil, or_false] at hmem
    rcases hmem with rfl | rfl
    · cases h
      rfl
    · obtain ⟨times, _, h⟩ := except_bind_ok.1 h
      split at h <;> cases h
      rfl
  datajets := by
    intro template hmem config context d h
    simp only [Registry.builtin, List.mem_cons, List.not_mem_nil, or_false] at hmem
    rcases hmem with rfl | rfl | rfl
    · obtain ⟨label, _, h⟩ := except_bind_ok.1 h
      cases h
      rfl
    · obtain ⟨file, _, h⟩ := except_bind_ok.1 h
      split at h <;> cases h
      rfl
    · cases h
      rfl

end Names

end DataPipeline
