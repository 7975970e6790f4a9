import DataPipeline.Proofs.Build.Failure
import DataPipeline.Proofs.Check.Membership
import DataPipeline.Proofs.Plugin.Builtin
import Mathlib.Data.List.Nodup
import Mathlib.Data.Option.Basic

namespace DataPipeline

/-- The text with which a check reports the failure of a build at a place. A plugin that fails
with an error of its own is not reported, as a check makes no plugins. -/
def BuildError.findingText? (place : NodePath) : BuildError → Option String
  | .malformedSchema _ .entryWithoutReference =>
    some (place.text ++ ": library entries require a 'referenceId'")
  | .malformedSchema path d => some (BuildError.malformedSchema path d).message
  | .unsupportedComponent name => some (BuildError.unsupportedComponent name).message
  | .duplicateReference id _ =>
    some (place.text ++ ": duplicate library referenceId '" ++ id ++ "'")
  | .pluginNotFound kind name known =>
    some (place.text ++ ": " ++ (BuildError.pluginNotFound kind name known).message)
  | .referenceNotFound id =>
    some (place.text ++ ": generator 'library' references '" ++ id ++
      "', which is not declared in an enclosing library")
  | .duplicatePlugin .. | .pluginFactory .. => none

/-- The plugin that a problem with a reference is about. -/
def Problem.referrer? : Problem → Option (PluginKind × String)
  | .undeclaredReference _ kind name _ => some (kind, name)
  | .referenceNotText _ kind name _ => some (kind, name)
  | _ => none

namespace Check

open Build (Stops PluginStops Becomes Publishes)

variable {visible : List String} {context : BuildContext} {path : NodePath}

/-- The ids of a list are those that can be seen in a context. -/
def SameIds (visible : List String) (context : BuildContext) : Prop :=
  ∀ id, id ∈ visible ↔ (context.library.get? id).isSome

theorem SameIds.derive {registry : Registry} {s : Schema} {entries : List (String × Node)}
    (h : SameIds visible context)
    (library : (Build.libraryEntries registry s.library context path 0 []).result =
      .ok entries) :
    SameIds (visible ++ (Check.entries registry s.library visible path 0 []).2)
      (context.derive s entries) := by
  intro id
  have hids : id ∈ entries.map (·.1) ↔ ∃ entry ∈ s.library, entry.referenceId = some id :=
    Build.mem_published library
  rw [List.mem_append, mem_declared, BuildContext.derive,
    Library.isSome_get?_overlay, hids, h id]
  simp [or_comm]

/-- A failure of a build with an error that a check can see is among the problems. -/
def Reports (e : BuildError) (place : NodePath) (found : Findings) : Prop :=
  (∃ kind name source, e = .pluginFactory kind name source) ∨
    ∃ text, e.findingText? place = some text ∧ text ∈ found.problems.map Problem.message

variable {e : BuildError} {place : NodePath} {found found' : Findings}

theorem Reports.of_mem {p : Problem} (ht : e.findingText? place = some p.message)
    (hp : p ∈ found.problems) : Reports e place found :=
  .inr ⟨p.message, ht, List.mem_map_of_mem hp⟩

theorem Reports.mono (h : Reports e place found)
    (hsub : ∀ p ∈ found.problems, p ∈ found'.problems) : Reports e place found' := by
  rcases h with h | ⟨text, ht, hmem⟩
  · exact .inl h
  · obtain ⟨p, hp, rfl⟩ := List.mem_map.1 hmem
    exact .of_mem ht (hsub p hp)

theorem reports_unresolved {s : Schema} (h : s.resolve path.text = .error e) :
    Reports e path (.problem (.unresolved e)) := by
  refine .of_mem ?_ List.mem_cons_self
  rcases Schema.resolve_error h with ⟨name, rfl⟩ | ⟨d, rfl, hd⟩
  · rfl
  · cases d <;> first | rfl | exact absurd rfl hd

theorem undeclaredReference_message (place : NodePath) (id : String) :
    (BuildError.referenceNotFound id).findingText? place =
      some (Problem.undeclaredReference place .generator "library" id).message := by
  have h : ": generator 'library' references '" =
      ": " ++ PluginKind.generator.name ++ " '" ++ "library" ++ "' references '" := rfl
  simp only [BuildError.findingText?, Problem.message, h, String.append_assoc]

variable {ref : PluginRef} {scope : List String}

theorem reports_unknown {kind : PluginKind} {known : List String}
    (h : Registry.builtin.mergedConfig kind ref =
      .error (.pluginNotFound kind ref.name known)) :
    Reports (.pluginNotFound kind ref.name known) place
      (plugin Registry.builtin kind ref place scope) := by
  rw [plugin, h]
  exact .of_mem rfl List.mem_cons_self

theorem reports_generator (hs : SameIds scope context)
    (h : (Registry.builtin.generators.create ref context).result = .error e) :
    Reports e place (plugin Registry.builtin .generator ref place scope) := by
  rcases Templates.create_error.1 h with h | ⟨template, refusal, ht, hf, rfl⟩
  · have he := Templates.get_error h
    subst he
    exact reports_unknown (Templates.mergedConfig_error.2 h)
  obtain ⟨hmem, hname⟩ := Templates.get_mem ht
  cases refusal with
  | own c => exact .inl ⟨_, _, _, rfl⟩
  | build e =>
    rcases builtin_generator hmem with rfl | ⟨_, hown⟩
    · obtain ⟨id, hid, hget, rfl⟩ := libraryFactory_error hf
      have hconfig := Templates.mergedConfig_ok.2 ⟨_, ht, rfl⟩
      have hscope : id ∉ scope := by simp [hs id, hget]
      refine .of_mem (p := .undeclaredReference place .generator ref.name id) ?_ ?_
      · rw [← hname]
        exact undeclaredReference_message place id
      · simp only [plugin, Registry.mergedConfig, hconfig, hid]
        simp [hscope]
    · exact absurd hf (hown _ _ _)

theorem reports_datajet
    (h : (Registry.builtin.datajets.create ref context).result = .error e) :
    Reports e place (plugin Registry.builtin .datajet ref place scope) := by
  rcases Templates.create_error.1 h with h | ⟨template, refusal, ht, hf, rfl⟩
  · have he := Templates.get_error h
    subst he
    exact reports_unknown (Templates.mergedConfig_error.2 h)
  cases refusal with
  | own c => exact .inl ⟨_, _, _, rfl⟩
  | build e => exact absurd hf (builtin_datajet_own (Templates.get_mem ht).1 _ _ _)

theorem reports_wrapper
    (h : (Registry.builtin.wrappers.create ref context).result = .error e) :
    Reports e place (plugin Registry.builtin .wrapper ref place scope) := by
  rcases Templates.create_error.1 h with h | ⟨template, refusal, ht, hf, rfl⟩
  · have he := Templates.get_error h
    subst he
    exact reports_unknown (Templates.mergedConfig_error.2 h)
  cases refusal with
  | own c => exact .inl ⟨_, _, _, rfl⟩
  | build e => exact absurd hf (builtin_wrapper_own (Templates.get_mem ht).1 _ _ _)

theorem reports_plugin {s : Schema} {spec : Spec} (hs : SameIds scope context)
    (h : PluginStops Registry.builtin context e spec) :
    Reports e path (rest Registry.builtin s path scope spec) := by
  cases spec with
  | stage g d settings =>
    rcases h with h | ⟨_, _, h⟩
    · exact (reports_generator hs h).mono fun p hp => List.mem_append_left _ hp
    · exact (reports_datajet h).mono fun p hp => List.mem_append_right _ hp
  | synchronizer children fan => cases h
  | wrap w c => exact (reports_wrapper h).mono fun p hp => List.mem_append_left _ hp
  | generator g => exact (reports_generator hs h).mono fun p hp => List.mem_append_right _ hp

/-- What a check reports of a build that fails: the cases are the places where it can stop, and
the ids around the place are the same in both. -/
theorem reports_of_stops {s : Schema} (hs : SameIds visible context)
    (h : Stops Registry.builtin s context path place e) :
    Reports e place (node Registry.builtin s visible path) := by
  induction h generalizing visible with
  | shape h =>
    rw [node_of_error h]
    exact reports_unresolved h
  | unnamed hr hk before hid =>
    refine .of_mem (p := .entryWithoutReference _) rfl
      ((mem_node hr).2 (.inl (mem_entries.2 ⟨_, _, hk, .inr ?_⟩)))
    simp only [EntryProblem, hid, Nat.zero_add]
  | repeated hr hk before hid taken =>
    refine .of_mem (p := .repeatedReference _ _) rfl
      ((mem_node hr).2 (.inl (mem_entries.2 ⟨_, _, hk, .inr ?_⟩)))
    simp only [EntryProblem, hid, Nat.zero_add, and_true]
    exact .inr ((Build.mem_published before).1 taken)
  | entry hr hk before hid fresh inner ih =>
    refine (ih hs).mono fun p hp => (mem_node hr).2 (.inl (mem_entries.2 ⟨_, _, hk, .inl ?_⟩))
    rwa [Nat.zero_add]
  | plugin hr library h =>
    exact (reports_plugin (hs.derive library) h).mono fun p hp => (mem_node hr).2 (.inr hp)
  | child hr library hk before inner ih =>
    refine (ih (hs.derive library)).mono fun p hp => (mem_node hr).2 (.inr ?_)
    rw [rest, Findings.append_problems]
    refine List.mem_append_right _ (mem_childNodes.2 ⟨_, _, hk, ?_⟩)
    rwa [Nat.zero_add]
  | wrapped hr library before inner ih =>
    refine (ih (hs.derive library)).mono fun p hp => (mem_node hr).2 (.inr ?_)
    rw [rest, Findings.append_problems, (Schema.resolve_fits hr).2, childNode]
    exact List.mem_append_right _ hp

/-- A problem with the reference of a plugin other than the one that reads it. -/
def Unread (p : Problem) : Prop :=
  ∃ kind name, p.referrer? = some (kind, name) ∧ (kind, name) ≠ (.generator, "library")

variable {p : Problem}

/-- The problems of a plugin that is there: if it reads its reference, that is a visible id. -/
theorem unread_plugin {kind : PluginKind} {config : Fields}
    (hm : Registry.builtin.mergedConfig kind ref = .ok config)
    (hread : kind = .generator → ref.name = "library" →
      ∃ id ∈ scope, config.get? referenceKey = some (.string id))
    (hp : p ∈ (plugin Registry.builtin kind ref path scope).problems) : Unread p := by
  have hother (h : ¬∃ id ∈ scope, config.get? referenceKey = some (.string id)) :
      (kind, ref.name) ≠ (.generator, "library") := by
    intro hk
    obtain ⟨hkind, hname⟩ := Prod.mk.inj hk
    exact h (hread hkind hname)
  rw [plugin, hm] at hp
  dsimp only at hp
  split at hp
  next id hid =>
    split at hp
    · cases hp
    next hscope =>
      cases List.mem_singleton.1 hp
      refine ⟨kind, ref.name, rfl, hother ?_⟩
      rintro ⟨id', hmem, hid'⟩
      cases hid.symm.trans hid'
      exact hscope (List.contains_iff_mem.2 hmem)
  next value htext hvalue =>
    cases List.mem_singleton.1 hp
    refine ⟨kind, ref.name, rfl, hother ?_⟩
    rintro ⟨id, _, hid⟩
    exact htext id (Option.some.inj (hvalue.symm.trans hid))
  · cases hp

theorem unread_generator {g : Generator} (hs : SameIds scope context)
    (h : (Registry.builtin.generators.create ref context).result = .ok g)
    (hp : p ∈ (plugin Registry.builtin .generator ref path scope).problems) : Unread p := by
  obtain ⟨template, ht, hf⟩ := Templates.create_ok.1 h
  have hm :
      Registry.builtin.mergedConfig .generator ref = .ok (template.mergedConfig ref.config) :=
    Templates.mergedConfig_ok.2 ⟨template, ht, rfl⟩
  refine unread_plugin hm (fun _ hname => ?_) hp
  obtain ⟨hmem, hname'⟩ := Templates.get_mem ht
  rcases builtin_generator hmem with rfl | ⟨hne, _⟩
  · obtain ⟨id, node, _, hid, hget, _, _⟩ := libraryFactory_ok hf
    exact ⟨id, (hs id).2 (by simp [hget]), hid⟩
  · exact absurd (hname'.trans hname) hne

theorem unread_datajet {d : Datajet}
    (h : (Registry.builtin.datajets.create ref context).result = .ok d)
    (hp : p ∈ (plugin Registry.builtin .datajet ref path scope).problems) : Unread p := by
  obtain ⟨template, ht, _⟩ := Templates.create_ok.1 h
  have hm :
      Registry.builtin.mergedConfig .datajet ref = .ok (template.mergedConfig ref.config) :=
    Templates.mergedConfig_ok.2 ⟨template, ht, rfl⟩
  exact unread_plugin hm (by rintro ⟨⟩) hp

theorem unread_wrapper {w : Wrapper}
    (h : (Registry.builtin.wrappers.create ref context).result = .ok w)
    (hp : p ∈ (plugin Registry.builtin .wrapper ref path scope).problems) : Unread p := by
  obtain ⟨template, ht, _⟩ := Templates.create_ok.1 h
  have hm :
      Registry.builtin.mergedConfig .wrapper ref = .ok (template.mergedConfig ref.config) :=
    Templates.mergedConfig_ok.2 ⟨template, ht, rfl⟩
  exact unread_plugin hm (by rintro ⟨⟩) hp

/-- No id of a library that is built is declared before it. -/
theorem not_entryProblem {s : Schema} {k : Nat} {entry : Schema}
    {entries : List (String × Node)}
    (library : (Build.libraryEntries Registry.builtin s.library context path 0 []).result =
      .ok entries)
    (hk : s.library[k]? = some entry) :
    ¬EntryProblem place (TakenAt [] s.library k) entry p := by
  have hids := Build.libraryEntries_ids library
  have hnodup : (s.library.map (·.referenceId)).Nodup := by
    have h := List.Nodup.map (Option.some_injective _) (Build.libraryEntries_ok.1 library).2.1
    rw [List.map_map] at h
    exact hids ▸ h
  unfold EntryProblem
  split
  next hid =>
    have hmem : none ∈ s.library.map (·.referenceId) := by
      rw [← hid]
      exact List.mem_map_of_mem (List.mem_of_getElem? hk)
    rw [hids] at hmem
    simp at hmem
  next id hid =>
    rintro ⟨htaken, -⟩
    rcases htaken with h | ⟨earlier, hmem, hid'⟩
    · cases h
    · rw [← List.take_append_drop k s.library, List.map_append] at hnodup
      have hlater : entry ∈ s.library.drop k :=
        List.mem_iff_getElem?.2 ⟨0, by rw [List.getElem?_drop, Nat.add_zero, hk]⟩
      refine (List.nodup_append.1 hnodup).2.2 (some id) ?_ (some id) ?_ rfl
      · exact hid' ▸ List.mem_map_of_mem hmem
      · exact hid ▸ List.mem_map_of_mem hlater

/-- Of a node that is built a check reports nothing but references that no plugin reads. -/
theorem unread_of_built {s : Schema} {n : Node} (hs : SameIds visible context)
    (h : (Build.node Registry.builtin s context path).result = .ok n)
    (hp : p ∈ (node Registry.builtin s visible path).problems) : Unread p := by
  induction s using Schema.induction generalizing visible context path n with
  | node s ihl ihc ihw =>
    obtain ⟨spec, hr, entries, library, h⟩ := Build.node_ok.1 h
    have hfits := Schema.resolve_fits hr
    have hin := hs.derive library
    rcases (mem_node hr).1 hp with hp | hp
    · obtain ⟨k, entry, hk, hp | hp⟩ := mem_entries.1 hp
      · obtain ⟨_, _, _, hn⟩ := Build.published_of_getElem? library hk
        exact ihl entry (List.mem_of_getElem? hk) hs hn hp
      · exact absurd hp (not_entryProblem library hk)
    cases spec with
    | stage g d settings =>
      obtain ⟨_, hg, h⟩ := Traced.bind_ok.1 h
      obtain ⟨_, hd, _⟩ := Traced.bind_ok.1 h
      rcases List.mem_append.1 hp with hp | hp
      · exact unread_generator hin hg hp
      · exact unread_datajet hd hp
    | synchronizer children fan =>
      obtain ⟨nodes, hnodes, _⟩ := Traced.bind_ok.1 h
      rcases List.mem_append.1 hp with hp | hp
      · split at hp <;> cases hp
      · obtain ⟨k, c, hk, hp⟩ := mem_childNodes.1 hp
        obtain ⟨_, _, hn⟩ := Build.becomes_of_getElem? hnodes hk
        exact ihc c (List.mem_of_getElem? hk) hin hn hp
    | wrap w c =>
      obtain ⟨_, hw, h⟩ := Traced.bind_ok.1 h
      obtain ⟨n, hn, _⟩ := Traced.bind_ok.1 h
      rcases List.mem_append.1 hp with hp | hp
      · exact unread_wrapper hw hp
      · rw [hfits.2, childNode] at hp
        rw [Build.childNode_some hfits.2] at hn
        exact ihw c hfits.2 hin hn hp
    | generator g =>
      obtain ⟨_, hg, _⟩ := Traced.bind_ok.1 h
      rcases List.mem_append.1 hp with hp | hp
      · split at hp <;> cases hp
      · exact unread_generator hin hg hp

end Check

variable {context : BuildContext}

theorem sameIds_empty {schema : Schema} (h : context.library.entries = []) :
    Check.SameIds [] (context.withRoot schema) := by
  intro id
  simp [BuildContext.withRoot, Library.get?, h]

/-- A check agrees with a build that starts from an empty library. A schema without problems
fails to build only by an error of a plugin's own; any other failure has its finding, for the
place where the build stops; and in a schema that is built a problem is only ever about a
reference that is not read. -/
theorem checkSchema_agrees (schema : Schema) (context : BuildContext)
    (h : context.library.entries = []) :
    ((checkSchema Registry.builtin schema).isOk = true →
      (∃ n, (buildPipeline Registry.builtin schema context).result = .ok n) ∨
        ∃ kind name source, (buildPipeline Registry.builtin schema context).result =
          .error (.pluginFactory kind name source)) ∧
    (∀ e, (buildPipeline Registry.builtin schema context).result = .error e →
      (∃ kind name source, e = .pluginFactory kind name source) ∨
        ∃ place text,
          Build.Stops Registry.builtin schema (context.withRoot schema) .root place e ∧
            e.findingText? place = some text ∧
            text ∈ (checkSchema Registry.builtin schema).problems.map Problem.message) ∧
    (∀ n, (buildPipeline Registry.builtin schema context).result = .ok n →
      ∀ p ∈ (checkSchema Registry.builtin schema).problems, ∃ kind name,
        p.referrer? = some (kind, name) ∧ (kind, name) ≠ (.generator, "library")) := by
  have hs : Check.SameIds [] (context.withRoot schema) := sameIds_empty h
  have hfound : ∀ e, (buildPipeline Registry.builtin schema context).result = .error e →
      ∃ place, Build.Stops Registry.builtin schema (context.withRoot schema) .root place e ∧
        Check.Reports e place (checkSchema Registry.builtin schema) := by
    intro e he
    obtain ⟨place, hstops⟩ := Build.stops_of_error he
    exact ⟨place, hstops, Check.reports_of_stops hs hstops⟩
  refine ⟨fun hok => ?_, fun e he => ?_, fun n hn p hp => Check.unread_of_built hs hn hp⟩
  · cases hr : (buildPipeline Registry.builtin schema context).result with
    | ok n => exact .inl ⟨n, rfl⟩
    | error e =>
      obtain ⟨_, _, ⟨kind, name, source, rfl⟩ | ⟨text, _, hmem⟩⟩ := hfound e hr
      · exact .inr ⟨kind, name, source, rfl⟩
      · rw [List.isEmpty_iff.1 hok] at hmem
        cases hmem
  · obtain ⟨place, hstops, hfactory | ⟨text, ht, hmem⟩⟩ := hfound e he
    · exact .inl hfactory
    · exact .inr ⟨place, text, hstops, ht, hmem⟩

/-- A synchronizer with an entry in its library, and children that refer to it and to
nothing. -/
def strayReference : Schema where
  component := some "synchronizer"
  library := [.ofGenerator (some "a") ⟨"increment", none⟩]
  children := ["a", "b"].map fun id =>
    .ofGenerator none ⟨"library", some [(referenceKey, .string id)]⟩

theorem checkSchema_agrees_strayReference :
    (BuildContext.mk "" "" {} none none).library.entries = [] ∧ ∃ place text,
      Build.Stops Registry.builtin strayReference
          ((BuildContext.mk "" "" {} none none).withRoot strayReference) .root place
          (.referenceNotFound "b") ∧
        (BuildError.referenceNotFound "b").findingText? place = some text ∧
        text ∈ (checkSchema Registry.builtin strayReference).problems.map Problem.message := by
  have h := (checkSchema_agrees strayReference (.mk "" "" {} none none) rfl).2.1
    (.referenceNotFound "b") rfl
  rcases h with ⟨_, _, _, h⟩ | h
  · cases h
  · exact ⟨rfl, h⟩

end DataPipeline
