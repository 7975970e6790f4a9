import DataPipeline.Proofs.Check.Visits
import DataPipeline.Proofs.Lock.Outline

namespace DataPipeline

theorem Templates.not_contains_of_get {α : Type} {t : Templates α} {name : String}
    {e : BuildError} (h : t.get name = .error e) : t.contains name = false := by
  unfold get at h
  split at h
  · cases h
  next hnone =>
    rw [find?, List.find?_eq_none] at hnone
    exact List.any_eq_false.2 hnone

theorem Registry.not_contains_of_mergedConfig {registry : Registry} {kind : PluginKind}
    {ref : PluginRef} {e : BuildError} (h : registry.mergedConfig kind ref = .error e) :
    registry.contains kind ref.name = false := by
  cases kind with
  | generator | wrapper
  | datajet => exact Templates.not_contains_of_get (Templates.mergedConfig_error.1 h)

namespace Lock

variable {registry : Registry} {root s : Schema} {place path : NodePath} {e : BuildError}

/-- A node cannot be pinned: it does not resolve, or it refers to a plugin that is not there. -/
inductive Unpinnable (registry : Registry) (s : Schema) (place : NodePath)
    (e : BuildError) : Prop where
  | unresolved (h : s.resolve place.text = .error e)
  | unknown {spec kind ref} (hs : s.resolve place.text = .ok spec)
      (hk : (kind, ref) ∈ spec.plugins) (he : registry.mergedConfig kind ref = .error e)

theorem plugin_error {kind : PluginKind} {ref : PluginRef} :
    plugin registry kind ref = .error e ↔ registry.mergedConfig kind ref = .error e := by
  simp [plugin, except_bind_error]

theorem plugins_error {spec : Spec} (h : plugins registry spec = .error e) :
    ∃ kind ref, (kind, ref) ∈ spec.plugins ∧ registry.mergedConfig kind ref = .error e := by
  cases spec with
  | stage g d settings =>
    simp only [plugins, except_bind_error, plugin_error] at h
    rcases h with h | ⟨_, _, h | ⟨_, _, h⟩⟩
    · exact ⟨.generator, g, List.mem_cons_self, h⟩
    · exact ⟨.datajet, d, List.mem_cons_of_mem _ List.mem_cons_self, h⟩
    · cases h
  | synchronizer => cases h
  | wrap w c =>
    simp only [plugins, except_bind_error, plugin_error] at h
    rcases h with h | ⟨_, _, h⟩
    · exact ⟨.wrapper, w, List.mem_cons_self, h⟩
    · cases h
  | generator g =>
    simp only [plugins, except_bind_error, plugin_error] at h
    rcases h with h | ⟨_, _, h⟩
    · exact ⟨.generator, g, List.mem_cons_self, h⟩
    · cases h

theorem nodes_error {l : List Schema} {hop : Nat → Hop} {index : Nat}
    (h : nodes registry l path hop index = .error e) :
    ∃ i s, l[i]? = some s ∧ node registry s (path.hop (hop (index + i))) = .error e := by
  induction l generalizing index with
  | nil => cases h
  | cons first rest ih =>
    rw [nodes, except_bind_error] at h
    rcases h with h | ⟨_, _, h⟩
    · exact ⟨0, first, rfl, h⟩
    rcases except_bind_error.1 h with h | ⟨_, _, h⟩
    · obtain ⟨i, s, hi, h⟩ := ih h
      rw [Nat.add_right_comm] at h
      exact ⟨i + 1, s, hi, h⟩
    · cases h

/-- A lock of a node fails at the node itself, in its library, or at what its kind lets it
hold. -/
theorem node_error (h : node registry s path = .error e) :
    Unpinnable registry s path e ∨ ∃ spec, s.resolve path.text = .ok spec ∧
      ∃ hop inner, s.held? hop = some inner ∧
        node registry inner (path.hop hop) = .error e := by
  obtain ⟨component, referenceId, library, config, children, child, generator,
    datajet, stage⟩ := s
  rw [node] at h
  rcases except_bind_error.1 h with h | ⟨spec, hs, h⟩
  · exact .inl (.unresolved h)
  rcases except_bind_error.1 h with h | ⟨pins, _, h⟩
  · obtain ⟨kind, ref, hk, he⟩ := plugins_error h
    exact .inl (.unknown hs hk he)
  refine .inr ⟨spec, hs, ?_⟩
  rcases except_bind_error.1 h with h | ⟨entries, _, h⟩
  · obtain ⟨i, inner, hi, h⟩ := nodes_error h
    rw [Nat.zero_add] at h
    exact ⟨.library i, inner, hi, h⟩
  have hkind := Schema.resolve_kind hs
  cases spec with
  | stage | generator => cases h
  | synchronizer =>
    rcases except_bind_error.1 h with h | ⟨_, _, h⟩
    · obtain ⟨i, inner, hi, h⟩ := nodes_error h
      rw [Nat.zero_add] at h
      refine ⟨.children i, inner, ?_, h⟩
      rw [Schema.held?, hkind]
      exact hi
    · cases h
  | wrap =>
    rcases except_bind_error.1 h with h | ⟨_, _, h⟩
    · cases child with
      | none => cases h
      | some inner =>
        refine ⟨.child, inner, ?_, h⟩
        rw [Schema.held?, hkind]
        rfl
    · cases h

theorem unpinnable_of_error (hs : root.Holds place s) (ho : root.OpenAt place)
    (h : node registry s place = .error e) :
    ∃ place s, root.Holds place s ∧ root.OpenAt place ∧ Unpinnable registry s place e := by
  induction s using Schema.induction generalizing place with
  | node s ihl ihc ihw =>
    rcases node_error h with hfail | ⟨spec, hr, hop, inner, hheld, h⟩
    · exact ⟨place, s, hs, ho, hfail⟩
    have hinner := hs.hop hheld
    have hopen : root.OpenAt (place.hop hop) := ho.hop hs.at?_eq hr
    cases hop with
    | library i => exact ihl inner (List.mem_of_getElem? hheld) hinner hopen h
    | children i =>
      obtain ⟨_, hi⟩ := Option.ite_none_right_eq_some.1 hheld
      exact ihc inner (List.mem_of_getElem? hi) hinner hopen h
    | child =>
      obtain ⟨_, hc⟩ := Option.ite_none_right_eq_some.1 hheld
      exact ihw inner hc hinner hopen h

/-- What a check says of a node that a lock cannot pin: the error itself if the node does not
resolve, and the error after the place of the node if a plugin is not there. -/
inductive Reported (registry : Registry) (root : Schema) (e : BuildError) : Prop where
  | unresolved {place : NodePath} {s : Schema} (hs : root.Holds place s)
      (h : s.resolve place.text = .error e)
      (found : e.message ∈ (checkSchema registry root).problems.map Problem.message)
  | unknown {place : NodePath} {s : Schema} {spec : Spec} {kind : PluginKind} {ref : PluginRef}
      (hs : root.Holds place s) (hr : s.resolve place.text = .ok spec)
      (hk : (kind, ref) ∈ spec.plugins) (hunknown : registry.contains kind ref.name = false)
      (found : place.text ++ ": " ++ e.message ∈
        (checkSchema registry root).problems.map Problem.message)

theorem reported_of_error (h : lockSchema registry root = .error e) :
    Reported registry root e := by
  obtain ⟨place, s, hs, ho, hfail⟩ := unpinnable_of_error .root Schema.openAt_root h
  have hvisited : Check.Visited registry root s place := Check.visited_of_openAt hs ho
  cases hfail with
  | unresolved hr =>
    exact .unresolved hs hr (List.mem_map_of_mem (Check.found_unresolved hvisited hr))
  | unknown hr hk he =>
    have hunknown := Registry.not_contains_of_mergedConfig he
    exact .unknown hs hr hk hunknown
      (List.mem_map_of_mem (Check.found_plugin hvisited hr hk he))

theorem lockSchema_of_isOk (h : (checkSchema registry root).isOk = true) :
    ∃ nodes, lockSchema registry root = .ok nodes := by
  cases hlock : lockSchema registry root with
  | ok nodes => exact ⟨nodes, rfl⟩
  | error e =>
    have hnone : (checkSchema registry root).problems = [] := List.isEmpty_iff.1 h
    cases reported_of_error hlock with
    | unresolved _ _ found | unknown _ _ _ _ found =>
      rw [hnone] at found
      cases found

end Lock

end DataPipeline
