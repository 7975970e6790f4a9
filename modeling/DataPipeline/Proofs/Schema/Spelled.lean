import DataPipeline.Proofs.Document.Proper
import DataPipeline.Proofs.Plugin.Builtin

namespace DataPipeline

open Document

namespace Registry

/-- A reference to a plugin that is there, with its defaults. -/
def spell (r : Registry) (kind : PluginKind) (ref : PluginRef) : PluginRef :=
  match r.mergedConfig kind ref with
  | .ok config => ⟨ref.name, some config⟩
  | .error _ => ref

/-- The settings of a wrap node, if its wrapper is there. -/
def spellWrap (r : Registry) (wrapper : PluginRef) (config : Option Json) : Option Json :=
  match r.mergedConfig .wrapper wrapper with
  | .ok merged => some (.obj [("wrapper", PluginRef.toJson ⟨wrapper.name, some merged⟩)])
  | .error _ => config

/-- The defaults of each plugin are what a JSON map can hold. -/
structure Proper (r : Registry) : Prop where
  generators : ∀ t ∈ r.generators.templates, (Json.object t.defaults).proper = true
  wrappers : ∀ t ∈ r.wrappers.templates, (Json.object t.defaults).proper = true
  datajets : ∀ t ∈ r.datajets.templates, (Json.object t.defaults).proper = true

end Registry

namespace Schema

mutual

/-- A schema in which each plugin reference that is visited and can be looked up has its
defaults spelled out. Below a node that does not resolve nothing is visited, and no more than
its library in a node that holds no others. -/
def spelled (registry : Registry) : Schema → Schema
  | ⟨component, referenceId, library, config, children, child, generator, datajet, stage⟩ =>
    let schema : Schema :=
      ⟨component, referenceId, library, config, children, child, generator, datajet, stage⟩
    match schema.resolve NodePath.root.text with
    | .error _ => schema
    | .ok spec =>
      let library := spelledAll registry library
      match spec with
      | .stage g d _ =>
        { schema with
          library
          generator := some (registry.spell .generator g)
          datajet := some (registry.spell .datajet d) }
      | .synchronizer .. => { schema with library, children := spelledAll registry children }
      | .wrap w _ =>
        { schema with
          library
          config := registry.spellWrap w config
          child := spelledChild registry child }
      | .generator g => { schema with library, generator := some (registry.spell .generator g) }

def spelledAll (registry : Registry) : List Schema → List Schema
  | [] => []
  | s :: rest => s.spelled registry :: spelledAll registry rest

def spelledChild (registry : Registry) : Option Schema → Option Schema
  | none => none
  | some s => some (s.spelled registry)

end

end Schema

/-- The view of a node whose references are spelled out. -/
def Spec.spelled (registry : Registry) : Spec → Spec
  | stage g d settings =>
    stage (registry.spell .generator g) (registry.spell .datajet d) settings
  | synchronizer children fan => synchronizer (children.map (·.spelled registry)) fan
  | wrap w c => wrap (registry.spell .wrapper w) (c.spelled registry)
  | generator g => generator (registry.spell .generator g)

namespace Registry

variable {r : Registry} {kind : PluginKind} {ref : PluginRef} {config : Fields}

theorem mergedConfig_merged {α : Type} {t : Templates α}
    (ht : ∀ template ∈ t.templates, (Json.object template.defaults).proper = true)
    (h : t.mergedConfig ref = .ok config) :
    t.mergedConfig ⟨ref.name, some config⟩ = .ok config := by
  unfold Templates.mergedConfig at h ⊢
  cases hget : t.get ref.name with
  | error e =>
    rw [hget] at h
    cases h
  | ok template =>
    have hdefaults := Json.proper_object.1 (ht template (Templates.get_mem hget).1)
    rw [hget] at h
    cases h
    exact congrArg Except.ok (Fields.merge_merge hdefaults.1)

theorem Proper.mergedConfig (hr : r.Proper) (h : r.mergedConfig kind ref = .ok config) :
    r.mergedConfig kind ⟨ref.name, some config⟩ = .ok config := by
  cases kind with
  | generator => exact mergedConfig_merged hr.generators h
  | wrapper => exact mergedConfig_merged hr.wrappers h
  | datajet => exact mergedConfig_merged hr.datajets h

theorem Proper.mergedConfig_spell (hr : r.Proper) (kind : PluginKind) (ref : PluginRef) :
    r.mergedConfig kind (r.spell kind ref) = r.mergedConfig kind ref := by
  rw [spell]
  cases h : r.mergedConfig kind ref with
  | ok config => exact hr.mergedConfig h
  | error e => exact h

theorem name_spell (r : Registry) (kind : PluginKind) (ref : PluginRef) :
    (r.spell kind ref).name = ref.name := by
  rw [spell]
  split <;> rfl

theorem Proper.spell_spell (hr : r.Proper) (kind : PluginKind) (ref : PluginRef) :
    r.spell kind (r.spell kind ref) = r.spell kind ref := by
  cases h : r.mergedConfig kind ref with
  | ok config =>
    have hspell : r.spell kind ref = ⟨ref.name, some config⟩ := by rw [spell, h]
    rw [hspell, spell, hr.mergedConfig h]
  | error e =>
    have hspell : r.spell kind ref = ref := by rw [spell, h]
    rw [hspell, hspell]

theorem Proper.spellWrap_spell (hr : r.Proper) (config : Option Json) :
    r.spellWrap (r.spell .wrapper ref) (r.spellWrap ref config) = r.spellWrap ref config := by
  have hmerged := hr.mergedConfig_spell .wrapper ref
  have hname := r.name_spell .wrapper ref
  rw [spellWrap, hmerged, hname]
  cases h : r.mergedConfig .wrapper ref with
  | ok merged => rw [spellWrap, h]
  | error e => rfl

end Registry

namespace Schema

variable {registry : Registry} {s : Schema} {path : String} {spec : Spec}

theorem spelledAll_eq (l : List Schema) :
    spelledAll registry l = l.map (·.spelled registry) := by
  induction l with
  | nil => rfl
  | cons s l ih => rw [spelledAll, ih, List.map_cons]

theorem spelled_of_error {e : BuildError} (h : s.resolve path = .error e) :
    s.spelled registry = s := by
  obtain ⟨e', h'⟩ : ∃ e', s.resolve NodePath.root.text = .error e' := by
    cases hroot : s.resolve NodePath.root.text with
    | error e' => exact ⟨e', rfl⟩
    | ok spec => cases (resolve_ok_of_path hroot).symm.trans h
  cases s
  rw [spelled, h']

/-- A node that resolves, with the references of its view spelled out. -/
def withSpelled (registry : Registry) (s : Schema) : Spec → Schema
  | .stage g d _ =>
    { s with
      library := s.library.map (·.spelled registry)
      generator := some (registry.spell .generator g)
      datajet := some (registry.spell .datajet d) }
  | .synchronizer .. =>
    { s with
      library := s.library.map (·.spelled registry)
      children := s.children.map (·.spelled registry) }
  | .wrap w _ =>
    { s with
      library := s.library.map (·.spelled registry)
      config := registry.spellWrap w s.config
      child := s.child.map (·.spelled registry) }
  | .generator g =>
    { s with
      library := s.library.map (·.spelled registry)
      generator := some (registry.spell .generator g) }

theorem spelled_of_ok (h : s.resolve path = .ok spec) :
    s.spelled registry = s.withSpelled registry spec := by
  have hroot : s.resolve NodePath.root.text = .ok spec := resolve_ok_of_path h
  obtain ⟨component, referenceId, library, config, children, child, generator,
    datajet, stage⟩ := s
  have hchild : spelledChild registry child = child.map (·.spelled registry) := by
    cases child <;> rfl
  rw [spelled, hroot]
  cases spec with
  | stage => simp only [withSpelled, spelledAll_eq]
  | synchronizer => simp only [withSpelled, spelledAll_eq]
  | wrap => simp only [withSpelled, spelledAll_eq, hchild]
  | generator => simp only [withSpelled, spelledAll_eq]

theorem library_spelled (h : s.resolve path = .ok spec) :
    (s.spelled registry).library = s.library.map (·.spelled registry) := by
  rw [spelled_of_ok h]
  cases spec <;> rfl

theorem referenceId_spelled : (s.spelled registry).referenceId = s.referenceId := by
  cases h : s.resolve NodePath.root.text with
  | error e => rw [spelled_of_error h]
  | ok spec =>
    rw [spelled_of_ok h]
    cases spec <;> rfl

theorem toJson_reference (name : String) (config : Fields) :
    PluginRef.toJson ⟨name, some config⟩ =
    .object [("config", .object config), ("name", .string name)] := by
  have hlt : "config" < "name" := by decide
  simp only [PluginRef.toJson, Json.obj, Fields.ofList, Option.map_some, Option.toList_some,
    List.foldl_cons, List.foldl_nil, Fields.insert, hlt, ↓reduceIte]

/-- A reference with proper settings is read as it was written. -/
theorem read_reference {r : Reading} {name : String} {config : Fields}
    (hdepth : Json.depthFields config + 1 < r.depth) (h : (Json.object config).proper = true) :
    PluginRef.read r (.ofJson (PluginRef.toJson ⟨name, some config⟩)) =
      .ok ⟨name, some config⟩ := by
  obtain ⟨format, anchors, depth, trail, home⟩ := r
  cases depth with
  | zero => cases hdepth
  | succ depth =>
    let inner : Reading := ⟨format, anchors, depth, trail, default⟩
    have hmap : (inner.step (.key "config")).readMap (.ofJson (.object config)) = .ok config :=
      readMap_of_proper (Nat.lt_of_succ_lt_succ hdepth) h
    have hput : PluginRef.shape.put PluginRef.shape.start "config" (inner.step (.key "config"))
        (.ofJson (.object config)) = .ok ⟨"", some config⟩ := by
      change (some <$> (inner.step (.key "config")).readMap (.ofJson (.object config)) >>=
        fun config => Except.ok (PluginRef.mk "" config)) = _
      rw [hmap]
      rfl
    have hentries : PluginRef.shape.readEntries inner PluginRef.shape.start []
        (Doc.ofFields [("config", .object config), ("name", .string name)]) =
          .ok (⟨name, some config⟩, ["name", "config"]) := by
      rw [Shape.readEntries_ofFields, if_pos (by decide), if_neg (by decide), hput]
      rfl
    rw [toJson_reference]
    change
      (PluginRef.shape.readEntries inner PluginRef.shape.start [] (Doc.ofFields _) >>= _) = _
    rw [hentries]
    rfl

/-- The settings of a wrap node are read as they were written. -/
theorem read_wrapper {name : String} {config : Fields}
    (h : (Json.object config).proper = true) :
    readJsonValue wrapShape.read (.obj [("wrapper", PluginRef.toJson ⟨name, some config⟩)]) =
      .ok (some ⟨name, some config⟩) := by
  obtain ⟨v, hv⟩ : ∃ v, v = PluginRef.toJson ⟨name, some config⟩ := ⟨_, rfl⟩
  have hdepth : Json.depthFields config + 1 < max v.depth 0 + 1 := by
    rw [hv, toJson_reference, Json.depth, Json.depthFields, Json.depth]
    omega
  let inner : Reading :=
    { format := .value, anchors := fun _ => none, depth := max v.depth 0 + 1, home := default }
  have hread :
      PluginRef.read (inner.step (.key "wrapper")) (.ofJson v) = .ok ⟨name, some config⟩ := by
    rw [hv]
    exact read_reference hdepth h
  have hentries : wrapShape.readEntries inner none [] (Doc.ofFields [("wrapper", v)]) =
      .ok (some ⟨name, some config⟩, ["wrapper"]) := by
    rw [Shape.readEntries_ofFields, if_pos (by decide), if_neg (by decide)]
    change ((some <$> PluginRef.read (inner.step (.key "wrapper")) (.ofJson v)) >>= fun a =>
      wrapShape.readEntries inner a ["wrapper"] (Doc.ofFields [])) = _
    rw [hread]
    rfl
  rw [← hv]
  change (wrapShape.readEntries inner none [] (Doc.ofFields [("wrapper", v)]) >>= _) = _
  rw [hentries]
  rfl

theorem proper_of_reference {r : Reading} {d : Doc} {ref : PluginRef}
    (h : PluginRef.read r d = .ok ref) :
    (Json.object (ref.config.getD [])).proper = true := by
  apply Shape.read_invariant
    (P := fun ref : PluginRef => (Json.object (ref.config.getD [])).proper = true)
    _ Hereditary.always trivial rfl h
  intro ref ref' name r d _ href hput
  change (if name = "name" then _ else _) = _ at hput
  split at hput
  · obtain ⟨_, _, hput⟩ := except_bind_ok.1 hput
    cases hput
    exact href
  · obtain ⟨config?, hconfig, hput⟩ := except_bind_ok.1 hput
    cases hput
    cases config? with
    | none => rfl
    | some config =>
      obtain ⟨_, _, _, hmap⟩ := of_readOption Hereditary.always trivial hconfig
      exact proper_of_readMap hmap

theorem proper_of_wrapper {config : Json} {ref : PluginRef}
    (h : readJsonValue wrapShape.read config = .ok (some ref)) :
    (Json.object (ref.config.getD [])).proper = true := by
  let Given (wrapper? : Option PluginRef) : Prop :=
    ∀ ref, wrapper? = some ref → (Json.object (ref.config.getD [])).proper = true
  have hgiven : Given (some ref) := by
    apply Shape.read_invariant _ Hereditary.always trivial _ h
    · intro a a' name r d _ _ hput ref' href'
      rw [href'] at hput
      exact proper_of_reference (some_map_ok hput)
    · nofun
  exact hgiven ref rfl

section

variable (hregistry : registry.Proper)
include hregistry

theorem proper_spelled {ref : PluginRef} {config : Fields}
    (href : (Json.object (ref.config.getD [])).proper = true)
    (h : registry.mergedConfig .wrapper ref = .ok config) :
    (Json.object config).proper = true := by
  change registry.wrappers.mergedConfig ref = .ok config at h
  obtain ⟨template, hget, rfl⟩ := Templates.mergedConfig_ok.1 h
  exact Json.proper_merge (hregistry.wrappers template (Templates.get_mem hget).1) href

theorem read_spellWrap {config : Json} {ref : PluginRef}
    (h : readJsonValue wrapShape.read config = .ok (some ref)) :
    ∃ config', registry.spellWrap ref (some config) = some config' ∧
      readJsonValue wrapShape.read config' = .ok (some (registry.spell .wrapper ref)) := by
  rw [Registry.spellWrap, Registry.spell]
  cases hmerged : registry.mergedConfig .wrapper ref with
  | error e => exact ⟨config, rfl, h⟩
  | ok merged =>
    exact ⟨_, rfl, read_wrapper (proper_spelled hregistry (proper_of_wrapper h) hmerged)⟩

theorem resolve_spelled (h : s.resolve path = .ok spec) :
    (s.spelled registry).resolve path = .ok (spec.spelled registry) := by
  rw [spelled_of_ok h]
  obtain ⟨k, hk, h⟩ := except_bind_ok.1 h
  cases k with
  | stage =>
    obtain ⟨g, hg, h⟩ := except_bind_ok.1 h
    obtain ⟨d, hd, h⟩ := except_bind_ok.1 h
    obtain ⟨settings, hsettings, h⟩ := except_bind_ok.1 h
    cases h
    apply except_bind_ok.2 ⟨_, hk, _⟩
    exact except_bind_ok.2
      ⟨_, rfl, except_bind_ok.2 ⟨_, rfl, except_bind_ok.2 ⟨_, hsettings, rfl⟩⟩⟩
  | synchronizer =>
    obtain ⟨fan, hfan, h⟩ := except_bind_ok.1 h
    split at h
    · cases h
    next hlimit =>
      cases h
      apply except_bind_ok.2 ⟨_, hk, _⟩
      exact except_bind_ok.2 ⟨fan, hfan, if_neg hlimit⟩
  | wrap =>
    obtain ⟨c, hc, h⟩ := except_bind_ok.1 h
    obtain ⟨config, hconfig, h⟩ := except_bind_ok.1 h
    obtain ⟨wrapper?, hread, h⟩ := except_bind_ok.1 h
    obtain ⟨wrapper, hwrapper, h⟩ := except_bind_ok.1 h
    cases h
    rw [require_ok] at hc hconfig hwrapper
    rw [hwrapper, mapError_ok] at hread
    obtain ⟨config', hspelled, hread'⟩ := read_spellWrap hregistry hread
    have hchild : require path .wrapWithoutChild (s.child.map (·.spelled registry)) =
        .ok (c.spelled registry) := by
      rw [require_ok, hc, Option.map_some]
    have hsettings : require path .wrapWithoutWrapper (registry.spellWrap wrapper s.config) =
        .ok config' := by
      rw [require_ok, hconfig, hspelled]
    apply except_bind_ok.2 ⟨_, hk, _⟩
    exact except_bind_ok.2 ⟨_, hchild, except_bind_ok.2 ⟨_, hsettings,
      except_bind_ok.2 ⟨_, mapError_ok.2 hread', except_bind_ok.2 ⟨_, rfl, rfl⟩⟩⟩⟩
  | generator =>
    obtain ⟨g, hg, h⟩ := except_bind_ok.1 h
    cases h
    apply except_bind_ok.2 ⟨_, hk, _⟩
    exact except_bind_ok.2 ⟨_, rfl, rfl⟩

/-- What is spelled out once is spelled out for good. -/
theorem spelled_spelled (s : Schema) :
    (s.spelled registry).spelled registry = s.spelled registry := by
  induction s using Schema.induction with
  | node s ihl ihc ihw =>
    cases h : s.resolve NodePath.root.text with
    | error e =>
      have hsame : s.spelled registry = s := spelled_of_error h
      rw [hsame, hsame]
    | ok spec =>
      have hlibrary : (s.library.map (·.spelled registry)).map (·.spelled registry) =
          s.library.map (·.spelled registry) := by
        rw [List.map_map]
        exact List.map_congr_left ihl
      rw [spelled_of_ok (resolve_spelled hregistry h), spelled_of_ok h]
      cases spec with
      | stage g d settings =>
        simp only [withSpelled, Spec.spelled, hlibrary, hregistry.spell_spell]
      | synchronizer children fan =>
        have hchildren : (s.children.map (·.spelled registry)).map (·.spelled registry) =
            s.children.map (·.spelled registry) := by
          rw [List.map_map]
          exact List.map_congr_left ihc
        simp only [withSpelled, Spec.spelled, hlibrary, hchildren]
      | wrap w c =>
        have hchild : (s.child.map (·.spelled registry)).map (·.spelled registry) =
            s.child.map (·.spelled registry) := by
          rw [(resolve_fits h).2]
          exact congrArg some (ihw c (resolve_fits h).2)
        simp only [withSpelled, Spec.spelled, hlibrary, hchild, hregistry.spellWrap_spell]
      | generator g => simp only [withSpelled, Spec.spelled, hlibrary, hregistry.spell_spell]

end

end Schema

end DataPipeline
