import DataPipeline.Proofs.Plugin.Builtin
import Mathlib.Data.List.Nodup

namespace DataPipeline

namespace Text

variable {name : String} {names names' : List String}

theorem pairwise_insertName (h : names.Pairwise (· < ·)) :
    (insertName name names).Pairwise (· < ·) := by
  induction names with
  | nil => exact List.pairwise_singleton _ _
  | cons n rest ih =>
    obtain ⟨hfirst, hrest⟩ := List.pairwise_cons.1 h
    rw [insertName]
    split
    next hlt =>
      refine List.pairwise_cons.2 ⟨fun a ha => ?_, h⟩
      rcases List.mem_cons.1 ha with rfl | ha
      · exact hlt
      · exact String.lt_trans hlt (hfirst a ha)
    next hlt =>
      split
      · exact h
      next hne =>
        refine List.pairwise_cons.2 ⟨fun a ha => ?_, ih hrest⟩
        rcases mem_insertName.1 ha with rfl | ha
        · by_contra hle
          exact hne (String.le_antisymm (String.not_lt.1 hle) (String.not_lt.1 hlt))
        · exact hfirst a ha

theorem pairwise_sorted (names : List String) : (sorted names).Pairwise (· < ·) := by
  induction names with
  | nil => exact .nil
  | cons name names ih => exact pairwise_insertName ih

theorem sorted_congr (h : ∀ name, name ∈ names ↔ name ∈ names') :
    sorted names = sorted names' := by
  have hperm : (sorted names).Perm (sorted names') := by
    rw [List.perm_ext_iff_of_nodup (pairwise_sorted names).nodup (pairwise_sorted names').nodup]
    intro name
    rw [mem_sorted, mem_sorted, h]
  apply hperm.eq_of_pairwise _ (pairwise_sorted names) (pairwise_sorted names')
  intro a b _ _ hab hba
  exact absurd (String.lt_trans hab hba) (String.lt_irrefl a)

end Text

namespace Templates

variable {α : Type} {t t' : Templates α} {name other : String} {defaults : Fields}
  {factory : Factory α}

theorem contains_eq : t.contains name = (t.find? name).isSome := by
  rw [contains, find?, List.isSome_find?]

theorem mem_known : name ∈ t.known ↔ (t.find? name).isSome := by
  rw [known, Text.mem_sorted, ← contains_eq, contains, List.any_eq_true, List.mem_map]
  simp

theorem get_eq :
    t.get name = (t.find? name).elim (.error (.pluginNotFound t.kind name t.known)) .ok := by
  rw [get]
  cases t.find? name with
  | none => rfl
  | some template => rfl

/-- What is found by a name after a registration is what was found before, or else what was
registered. -/
theorem find?_register (h : t.register name defaults factory = .ok t') : t'.find? other =
    (t.find? other).or (if name = other then some ⟨name, defaults, factory⟩ else none) := by
  rw [register] at h
  split at h
  · cases h
  · cases h
    rw [find?, find?, List.find?_append, List.find?_singleton]
    simp

end Templates

/-- What the plugins of a kind are. -/
def PluginKind.Instance : PluginKind → Type
  | .generator => Generator
  | .wrapper => Wrapper
  | .datajet => Datajet

namespace Registry

/-- The templates of a kind. -/
def under (r : Registry) : (kind : PluginKind) → Templates kind.Instance
  | .generator => r.generators
  | .wrapper => r.wrappers
  | .datajet => r.datajets

/-- The registry with other templates of a kind. -/
def withTemplates (r : Registry) : (kind : PluginKind) → Templates kind.Instance → Registry
  | .generator, t => { r with generators := t }
  | .wrapper, t => { r with wrappers := t }
  | .datajet, t => { r with datajets := t }

variable {r : Registry} {kind kind' : PluginKind} {t : Templates kind.Instance}

theorem under_withTemplates : (r.withTemplates kind t).under kind = t := by
  cases kind <;> rfl

theorem under_withTemplates_of_ne (h : kind' ≠ kind) :
    (r.withTemplates kind t).under kind' = r.under kind' := by
  cases kind <;> cases kind' <;> first | rfl | exact absurd rfl h

theorem contains_eq (name : String) : r.contains kind name = (r.under kind).contains name := by
  cases kind <;> rfl

theorem known_eq : r.known kind = (r.under kind).known := by
  cases kind <;> rfl

theorem mergedConfig_eq (ref : PluginRef) :
    r.mergedConfig kind ref = (r.under kind).mergedConfig ref := by
  cases kind <;> rfl

end Registry

/-- A plugin that is to be registered among those of its kind. -/
structure Registration where
  kind : PluginKind
  template : Template kind.Instance

namespace Registration

/-- The name together with the kind under which a plugin is registered. -/
def key (call : Registration) : PluginKind × String := (call.kind, call.template.name)

/-- The template that is registered, if it is for a kind and a name. -/
def under? (call : Registration) (kind : PluginKind) (name : String) :
    Option (Template kind.Instance) :=
  if h : call.kind = kind then if call.template.name = name then some (h ▸ call.template)
  else none else none

theorem under?_self (call : Registration) (name : String) :
    call.under? call.kind name = if call.template.name = name then
      some call.template else none := by
  rw [under?, dif_pos rfl]

theorem under?_of_ne {call : Registration} {kind : PluginKind} (h : kind ≠ call.kind)
    (name : String) :
    call.under? kind name = none := by
  rw [under?, dif_neg (Ne.symm h)]

theorem isSome_under? {call : Registration} {kind : PluginKind} {name : String} :
    (call.under? kind name).isSome = true ↔ call.key = (kind, name) := by
  rw [under?, key, Prod.mk.injEq]
  split
  next hkind =>
    split
    next hname => simp [hkind, hname]
    next hname => simp [hname]
  next hkind => simp [hkind]

end Registration

namespace Registry

/-- Registers a plugin. The answer tells whether it was accepted; if it was not, the registry
stays as it is. -/
def register (r : Registry) (call : Registration) : Except BuildError Unit × Registry :=
  match (r.under call.kind).register call.template.name call.template.defaults
    call.template.factory with
  | .ok t => (.ok (), r.withTemplates call.kind t)
  | .error e => (.error e, r)

/-- Registers plugins one after another, whatever the answers are. -/
def registerAll (r : Registry) (calls : List Registration) : Registry :=
  calls.foldl (fun r call => (r.register call).2) r

variable {r r' : Registry} {call : Registration} {calls : List Registration} {kind : PluginKind}
  {name : String}

theorem registerAll_cons :
    r.registerAll (call :: calls) = (r.register call).2.registerAll calls := rfl

theorem registerAll_concat :
    r.registerAll (calls ++ [call]) = ((r.registerAll calls).register call).2 := by
  rw [registerAll, List.foldl_append]
  rfl

theorem fst_register : (r.register call).1 = if (r.under call.kind).contains call.template.name
    then .error (.duplicatePlugin (r.under call.kind).kind call.template.name) else .ok () := by
  rw [register, Templates.register]
  by_cases hthere : (r.under call.kind).contains call.template.name = true
  · rw [if_pos hthere, if_pos hthere]
  · rw [if_neg hthere, if_neg hthere]

theorem kind_register : ((r.register call).2.under kind).kind = (r.under kind).kind := by
  rw [register, Templates.register]
  split
  next t h =>
    split at h
    · cases h
    · cases h
      by_cases hkind : kind = call.kind
      · subst hkind
        rw [under_withTemplates]
      · rw [under_withTemplates_of_ne hkind]
  · rfl

/-- What is found after one more registration is what was found before, or else what was
registered. -/
theorem find?_register : ((r.register call).2.under kind).find? name =
    ((r.under kind).find? name).or (call.under? kind name) := by
  rw [register]
  by_cases hkind : kind = call.kind
  · subst hkind
    rw [call.under?_self]
    split
    next t h => rw [under_withTemplates, Templates.find?_register h]
    next e h =>
      rw [Templates.register, Templates.contains_eq] at h
      split at h
      next hthere =>
        split
        next hname =>
          subst hname
          obtain ⟨template, hfound⟩ := Option.isSome_iff_exists.1 hthere
          rw [hfound]
          rfl
        · rw [Option.or_none]
      · cases h
  · rw [call.under?_of_ne hkind, Option.or_none]
    split
    · rw [under_withTemplates_of_ne hkind]
    · rfl

theorem find?_registerAll (r : Registry) (calls : List Registration) :
    ((r.registerAll calls).under kind).find? name =
    ((r.under kind).find? name).or (calls.findSome? (·.under? kind name)) := by
  induction calls generalizing r with
  | nil => exact (Option.or_none).symm
  | cons call calls ih =>
    rw [registerAll_cons, ih, find?_register, Option.or_assoc, List.findSome?_cons]
    cases call.under? kind name with
    | none => rw [Option.none_or]
    | some template => rw [Option.some_or]

theorem kind_registerAll (r : Registry) (calls : List Registration) :
    ((r.registerAll calls).under kind).kind = (r.under kind).kind := by
  induction calls generalizing r with
  | nil => rfl
  | cons call calls ih => rw [registerAll_cons, ih, kind_register]

/-- The registry after calls that start with no plugin at all. -/
def ofCalls (calls : List Registration) : Registry := registerAll {} calls

theorem find?_ofCalls :
    ((ofCalls calls).under kind).find? name = calls.findSome? (·.under? kind name) := by
  have hempty : ((({} : Registry).under kind).find? name) = none := by cases kind <;> rfl
  rw [ofCalls, find?_registerAll, hempty, Option.none_or]

theorem kind_ofCalls : ((ofCalls calls).under kind).kind = kind := by
  rw [ofCalls, kind_registerAll]
  cases kind <;> rfl

theorem isSome_find?_ofCalls :
    (((ofCalls calls).under kind).find? name).isSome = true ↔
    (kind, name) ∈ calls.map (·.key) := by
  rw [find?_ofCalls, List.isSome_findSome?, List.any_eq_true, List.mem_map]
  simp only [Registration.isSome_under?]

/-- A registry answers for a name under a kind with the defaults and the factory of a
template. -/
structure Serves (r : Registry) (kind : PluginKind) (name : String)
    (template : Template kind.Instance) : Prop where
  contains : r.contains kind name = true
  get : (r.under kind).get name = .ok template
  mergedConfig : ∀ config, r.mergedConfig kind ⟨name, config⟩ =
    .ok (Fields.merge template.defaults (config.getD []))
  create : ∀ config context, (r.under kind).create ⟨name, config⟩ context =
    ⟨[⟨kind, name, Fields.merge template.defaults (config.getD []), context⟩],
      (template.factory (Fields.merge template.defaults (config.getD [])) context).mapError fun
        | .build e => e
        | .own c => .pluginFactory kind name c⟩

/-- A registry has nothing for a name under a kind, and says what it has instead. -/
structure Lacks (r : Registry) (kind : PluginKind) (name : String) : Prop where
  contains : r.contains kind name = false
  get : (r.under kind).get name = .error (.pluginNotFound kind name (r.known kind))
  mergedConfig : ∀ config, r.mergedConfig kind ⟨name, config⟩ =
    .error (.pluginNotFound kind name (r.known kind))
  create : ∀ config context, (r.under kind).create ⟨name, config⟩ context =
    .error (.pluginNotFound kind name (r.known kind))

/-- Registries that answer every question in the same way. -/
structure Alike (r r' : Registry) : Prop where
  register : ∀ call, (r.register call).1 = (r'.register call).1
  contains : ∀ kind name, r.contains kind name = r'.contains kind name
  known : ∀ kind, r.known kind = r'.known kind
  get : ∀ kind name, (r.under kind).get name = (r'.under kind).get name
  mergedConfig : ∀ kind ref, r.mergedConfig kind ref = r'.mergedConfig kind ref
  create :
    ∀ kind ref context, (r.under kind).create ref context = (r'.under kind).create ref context

theorem serves_of_find? {template : Template kind.Instance} (hkind : (r.under kind).kind = kind)
    (h : (r.under kind).find? name = some template) : r.Serves kind name template where
  contains := by rw [contains_eq, Templates.contains_eq, h, Option.isSome_some]
  get := by rw [Templates.get_eq, h, Option.elim_some]
  mergedConfig config := by
    rw [mergedConfig_eq, Templates.mergedConfig, Templates.get_eq, h]
    rfl
  create config context := by
    rw [Templates.create, Templates.get_eq, h, hkind]
    dsimp only [Option.elim_some, Template.mergedConfig]
    congr 2
    funext refusal
    cases refusal with
    | build e => rfl
    | own c => rw [Templates.refuse, hkind]

theorem lacks_of_find? (hkind : (r.under kind).kind = kind)
    (h : (r.under kind).find? name = none) :
    r.Lacks kind name where
  contains := by rw [contains_eq, Templates.contains_eq, h, Option.isSome_none]
  get := by rw [Templates.get_eq, h, hkind, known_eq, Option.elim_none]
  mergedConfig config := by
    rw [mergedConfig_eq, Templates.mergedConfig, Templates.get_eq, h, hkind, known_eq]
    rfl
  create config context := by
    rw [Templates.create, Templates.get_eq, h, hkind, known_eq, Option.elim_none]

/-- What a registry answers depends only on what is found in it by kind and name. -/
theorem alike_of_find? (hkind : ∀ kind, (r.under kind).kind = (r'.under kind).kind)
    (h : ∀ kind name, (r.under kind).find? name = (r'.under kind).find? name) : r.Alike r' := by
  have hcontains (kind : PluginKind) (name : String) :
      (r.under kind).contains name = (r'.under kind).contains name := by
    rw [Templates.contains_eq, Templates.contains_eq, h]
  have hknown (kind : PluginKind) : (r.under kind).known = (r'.under kind).known := by
    apply Text.sorted_congr
    intro name
    rw [← Text.mem_sorted]
    have hsame : name ∈ (r.under kind).known ↔ name ∈ (r'.under kind).known := by
      rw [Templates.mem_known, Templates.mem_known, h]
    exact hsame.trans Text.mem_sorted
  have hget (kind : PluginKind) (name : String) :
      (r.under kind).get name = (r'.under kind).get name := by
    rw [Templates.get_eq, Templates.get_eq, h, hknown, hkind]
  constructor
  case register =>
    intro call
    rw [fst_register, fst_register, hcontains, hkind]
  case contains =>
    intro kind name
    rw [contains_eq, contains_eq, hcontains]
  case known =>
    intro kind
    rw [known_eq, known_eq, hknown]
  case get => exact hget
  case mergedConfig =>
    intro kind ref
    rw [mergedConfig_eq, mergedConfig_eq, Templates.mergedConfig, Templates.mergedConfig, hget]
  case create =>
    intro kind ref context
    have hrefuse : (r.under kind).refuse ref.name = (r'.under kind).refuse ref.name := by
      funext refusal
      cases refusal with
      | build e => rfl
      | own c => rw [Templates.refuse, Templates.refuse, hkind]
    rw [Templates.create, Templates.create, hget, hkind, hrefuse]

theorem findSome?_filter :
    (calls.filter (·.key = (kind, name))).findSome? (·.under? kind name) =
    calls.findSome? (·.under? kind name) := by
  induction calls with
  | nil => rfl
  | cons call calls ih =>
    by_cases hkey : call.key = (kind, name)
    · rw [List.filter_cons_of_pos (by simpa using hkey), List.findSome?_cons,
        List.findSome?_cons, ih]
    · have hnone : call.under? kind name = none := by
        rw [← Option.not_isSome_iff_eq_none, Registration.isSome_under?]
        exact hkey
      rw [List.filter_cons_of_neg (by simpa using hkey), List.findSome?_cons, hnone, ih]

theorem register_ofCalls_of_mem (h : call.key ∈ calls.map (·.key)) :
    (ofCalls calls).register call =
    (.error (.duplicatePlugin call.kind call.template.name), ofCalls calls) := by
  have hthere := isSome_find?_ofCalls.2 h
  rw [register, Templates.register, Templates.contains_eq, if_pos hthere, kind_ofCalls]

theorem register_ofCalls_of_notMem (h : call.key ∉ calls.map (·.key)) :
    ((ofCalls calls).register call).1 = .ok () := by
  have hnone := mt isSome_find?_ofCalls.1 h
  rw [fst_register, Templates.contains_eq, if_neg hnone]

end Registry

/-- The first registration of a name under a kind is the only one. A call is refused just if an
earlier one was for the same kind and name, and then nothing changes; otherwise it is accepted.
Whatever was called, a kind and name are answered for with the defaults and the factory of the
first call for them, those that no call was for are said to be unknown, and the known names are
just those that were called for, in ascending order. Only the order of calls for the same kind
and name matters. -/
theorem ofCalls_first_registration (calls : List Registration) :
    (∀ call, (call.key ∈ calls.map (·.key) → (Registry.ofCalls calls).register call =
        (.error (.duplicatePlugin call.kind call.template.name), Registry.ofCalls calls)) ∧
      (call.key ∉ calls.map (·.key) → ((Registry.ofCalls calls).register call).1 = .ok ()) ∧
      Registry.ofCalls (calls ++ [call]) = ((Registry.ofCalls calls).register call).2) ∧
    (∀ before call after, calls = before ++ call :: after → call.key ∉ before.map (·.key) →
      (Registry.ofCalls calls).Serves call.kind call.template.name call.template) ∧
    (∀ kind name, (kind, name) ∉ calls.map (·.key) → (Registry.ofCalls calls).Lacks kind name) ∧
    (∀ kind, ((Registry.ofCalls calls).known kind).Pairwise (· < ·) ∧
      ∀ name, name ∈ (Registry.ofCalls calls).known kind ↔ (kind, name) ∈ calls.map (·.key)) ∧
    ∀ calls', (∀ key, calls.filter (·.key = key) = calls'.filter (·.key = key)) →
      (Registry.ofCalls calls).Alike (Registry.ofCalls calls') := by
  refine ⟨fun call => ?_, ?_, ?_, fun kind => ?_, ?_⟩
  · exact ⟨Registry.register_ofCalls_of_mem, Registry.register_ofCalls_of_notMem,
      Registry.registerAll_concat⟩
  · rintro before call after rfl hfirst
    apply Registry.serves_of_find? Registry.kind_ofCalls
    have hbefore : before.findSome? (·.under? call.kind call.template.name) = none := by
      rw [← Registry.find?_ofCalls, ← Option.not_isSome_iff_eq_none,
        Registry.isSome_find?_ofCalls]
      exact hfirst
    rw [Registry.find?_ofCalls, List.findSome?_append, hbefore, Option.none_or,
      List.findSome?_cons, call.under?_self, if_pos rfl]
  · intro kind name hnone
    apply Registry.lacks_of_find? Registry.kind_ofCalls
    rw [← Option.not_isSome_iff_eq_none, Registry.isSome_find?_ofCalls]
    exact hnone
  · rw [Registry.known_eq]
    refine ⟨Text.pairwise_sorted _, fun name => ?_⟩
    rw [Templates.mem_known, Registry.isSome_find?_ofCalls]
  · intro calls' hsame
    apply Registry.alike_of_find?
    · intro kind
      rw [Registry.kind_ofCalls, Registry.kind_ofCalls]
    · intro kind name
      rw [Registry.find?_ofCalls, Registry.find?_ofCalls, ← Registry.findSome?_filter, hsame,
        Registry.findSome?_filter]

/-- The calls that make the built-in plugins known. -/
def builtinCalls : List Registration :=
  Registry.builtin.generators.templates.map (⟨.generator, ·⟩) ++
    Registry.builtin.wrappers.templates.map (⟨.wrapper, ·⟩) ++
    Registry.builtin.datajets.templates.map (⟨.datajet, ·⟩)

theorem ofCalls_builtinCalls : Registry.ofCalls builtinCalls = Registry.builtin := rfl

/-- A generator and a sink of one name, and another generator of that name. -/
def clashingCalls : List Registration := [
  ⟨.generator, ⟨"file", [("repeat", .nat 3)], staticFactory⟩⟩,
  ⟨.datajet, ⟨"file", [], fileFactory⟩⟩,
  ⟨.generator, ⟨"file", [], libraryFactory⟩⟩]

theorem ofCalls_first_registration_clashingCalls :
    (Registry.ofCalls (clashingCalls.take 2)).register
      ⟨.generator, ⟨"file", [], libraryFactory⟩⟩ =
      (.error (.duplicatePlugin .generator "file"), Registry.ofCalls (clashingCalls.take 2)) ∧
    (Registry.ofCalls clashingCalls).Serves .generator "file" ⟨"file", [("repeat", .nat 3)],
      staticFactory⟩ ∧
    (Registry.ofCalls clashingCalls).Serves .datajet "file" ⟨"file", [], fileFactory⟩ ∧
    (Registry.ofCalls clashingCalls).Lacks .wrapper "file" ∧
    (Registry.ofCalls clashingCalls).known .generator = ["file"] ∧
    (∀ key, clashingCalls.filter (·.key = key) =
      (clashingCalls.tail.take 1 ++ clashingCalls.take 1 ++ clashingCalls.drop 2).filter
        (·.key = key)) ∧
    (Registry.ofCalls clashingCalls).Alike
      (Registry.ofCalls
        (clashingCalls.tail.take 1 ++ clashingCalls.take 1 ++ clashingCalls.drop 2)) := by
  obtain ⟨hcalls, _⟩ := ofCalls_first_registration (clashingCalls.take 2)
  obtain ⟨_, hserves, hlacks, _, hreordered⟩ := ofCalls_first_registration clashingCalls
  have hsame : ∀ key, clashingCalls.filter (·.key = key) =
      (clashingCalls.tail.take 1 ++ clashingCalls.take 1 ++ clashingCalls.drop 2).filter
        (·.key = key) := by
    rintro ⟨kind, name⟩
    by_cases hname : "file" = name
    · subst hname
      cases kind <;> rfl
    · simp [clashingCalls, Registration.key, hname]
  refine ⟨(hcalls _).1 (by decide), ?_, ?_, hlacks _ _ (by decide), rfl, hsame,
    hreordered _ hsame⟩
  · exact hserves [] _ _ rfl List.not_mem_nil
  · exact hserves [⟨.generator, ⟨"file", [("repeat", .nat 3)], staticFactory⟩⟩] _ _ rfl
      (by decide)

end DataPipeline
