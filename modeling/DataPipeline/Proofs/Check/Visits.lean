import DataPipeline.Proofs.Build.Scope
import DataPipeline.Proofs.Check.Membership
import DataPipeline.Proofs.Plugin.Builtin

namespace DataPipeline

namespace Schema

/-- The nodes that a schema holds, each at its place: what is in a library, and what the kind of
a node lets it hold. -/
inductive Holds (root : Schema) : NodePath → Schema → Prop where
  | root : Holds root .root root
  | library {place s i entry} (h : Holds root place s) (hi : s.library[i]? = some entry) :
      Holds root (place.hop (.library i)) entry
  | children {place s i c} (h : Holds root place s) (hk : s.kind = .ok .synchronizer)
      (hi : s.children[i]? = some c) : Holds root (place.hop (.children i)) c
  | child {place s c} (h : Holds root place s) (hk : s.kind = .ok .wrap)
      (hc : s.child = some c) :
      Holds root (place.hop .child) c

/-- Every node around a place resolves. -/
def OpenAt (root : Schema) (place : NodePath) : Prop :=
  ∀ outer s, outer.hops <:+ place.hops → outer ≠ place → root.at? outer.hops = some s →
    ∃ spec, s.resolve outer.text = .ok spec

variable {root s : Schema} {place : NodePath} {h : Hop}

theorem Holds.at?_eq (hs : root.Holds place s) : root.at? place.hops = some s := by
  induction hs with
  | root => rfl
  | library _ hi ih => exact (at?_hop ih).trans hi
  | children _ _ hi ih => exact (at?_hop ih).trans hi
  | child _ _ hc ih => exact (at?_hop ih).trans hc

theorem Holds.of_library {i : Nat} (hs : root.Holds (place.hop (.library i)) s) :
    ∃ s', root.Holds place s' ∧ s'.library[i]? = some s := by
  generalize hp : place.hop (.library i) = inside at hs
  cases hs with
  | root => cases hp
  | @library outer s' j _ hs hi =>
    cases outer
    cases place
    cases hp
    exact ⟨s', hs, hi⟩
  | children => cases hp
  | child => cases hp

theorem OpenAt.outer (ho : root.OpenAt (place.hop h)) : root.OpenAt place := by
  intro outer s hsuffix _ hat
  have hinside : outer.hops <:+ (place.hop h).hops :=
    hsuffix.trans (List.suffix_cons h place.hops)
  apply ho outer s hinside _ hat
  rintro rfl
  have hlen : place.hops.length + 1 ≤ place.hops.length := hsuffix.length_le
  omega

theorem OpenAt.resolves (ho : root.OpenAt (place.hop h)) (hat : root.at? place.hops = some s) :
    ∃ spec, s.resolve place.text = .ok spec := by
  apply ho place s (List.suffix_cons h place.hops) _ hat
  intro heq
  have hlen := congrArg (·.hops.length) heq
  simp [NodePath.hop] at hlen

theorem openAt_root : root.OpenAt .root := by
  rintro ⟨hops⟩ s hsuffix hne
  have hnil : hops = [] := List.suffix_nil.1 hsuffix
  subst hnil
  exact absurd rfl hne

theorem OpenAt.hop {spec : Spec} (ho : root.OpenAt place) (hat : root.at? place.hops = some s)
    (hs : s.resolve place.text = .ok spec) : root.OpenAt (place.hop h) := by
  rintro outer s' hsuffix hne hat'
  rcases List.suffix_cons_iff.1 hsuffix with heq | hsuffix
  · cases outer
    cases heq
    exact absurd rfl hne
  by_cases hp : outer = place
  · subst hp
    cases hat.symm.trans hat'
    exact ⟨spec, hs⟩
  · exact ho outer s' hsuffix hp hat'

end Schema

/-- The place that a problem names. -/
def Problem.place? : Problem → Option NodePath
  | .unresolved _ => none
  | .entryWithoutReference place | .repeatedReference place _ | .plugin place _
  | .undeclaredReference place .. | .referenceNotText place .. => some place

namespace Check

variable {registry : Registry} {root s : Schema} {place path : NodePath}
  {visible scope : List String} {p : Problem}

/-- All that a check would find at a node is found. -/
def Visited (registry : Registry) (root s : Schema) (place : NodePath) : Prop :=
  ∃ visible, ∀ p ∈ (node registry s visible place).problems,
    p ∈ (checkSchema registry root).problems

theorem visited_root : Visited registry root root .root := ⟨[], fun _ hp => hp⟩

theorem Visited.library {spec : Spec} {i : Nat} {entry : Schema}
    (h : Visited registry root s place) (hs : s.resolve place.text = .ok spec)
    (hi : s.library[i]? = some entry) :
    Visited registry root entry (place.hop (.library i)) := by
  obtain ⟨visible, hfound⟩ := h
  refine ⟨visible, fun p hp => hfound p ?_⟩
  apply (mem_node hs).2 (.inl (mem_entries.2 ⟨i, entry, hi, .inl _⟩))
  rwa [Nat.zero_add]

theorem Visited.children {children : List Schema} {fan : FanOutSettings} {i : Nat} {c : Schema}
    (h : Visited registry root s place)
    (hs : s.resolve place.text = .ok (.synchronizer children fan))
    (hi : s.children[i]? = some c) :
    Visited registry root c (place.hop (.children i)) := by
  obtain ⟨visible, hfound⟩ := h
  refine ⟨visible ++ (entries registry s.library visible place 0 []).2, fun p hp => hfound p ?_⟩
  apply (mem_node hs).2 (.inr (List.mem_append_right _ (mem_childNodes.2 ⟨i, c, hi, _⟩)))
  rwa [Nat.zero_add]

theorem Visited.child {w : PluginRef} {c c' : Schema} (h : Visited registry root s place)
    (hs : s.resolve place.text = .ok (.wrap w c')) (hc : s.child = some c) :
    Visited registry root c (place.hop .child) := by
  obtain ⟨visible, hfound⟩ := h
  refine ⟨visible ++ (entries registry s.library visible place 0 []).2, fun p hp => hfound p ?_⟩
  apply (mem_node hs).2 (.inr (List.mem_append_right _ _))
  rwa [hc, childNode]

theorem visited_of_openAt (h : root.Holds place s) (ho : root.OpenAt place) :
    Visited registry root s place := by
  induction h with
  | root => exact visited_root
  | library hs hi ih =>
    obtain ⟨spec, hr⟩ := ho.resolves hs.at?_eq
    exact (ih ho.outer).library hr hi
  | children hs hk hi ih =>
    obtain ⟨spec, hr⟩ := ho.resolves hs.at?_eq
    have hfits := Schema.resolve_fits hr
    cases spec with
    | synchronizer children fan => exact (ih ho.outer).children hr hi
    | stage | wrap | generator => cases hk.symm.trans hfits.1
  | child hs hk hc ih =>
    obtain ⟨spec, hr⟩ := ho.resolves hs.at?_eq
    have hfits := Schema.resolve_fits hr
    cases spec with
    | wrap w c' => exact (ih ho.outer).child hr hc
    | stage | synchronizer | generator => cases hk.symm.trans hfits.1

theorem found_unresolved {e : BuildError} (h : Visited registry root s place)
    (hs : s.resolve place.text = .error e) :
    .unresolved e ∈ (checkSchema registry root).problems := by
  obtain ⟨visible, hfound⟩ := h
  apply hfound
  rw [node_of_error hs]
  exact List.mem_singleton_self _

theorem found_entryWithoutReference {spec : Spec} {i : Nat} {entry : Schema}
    (h : Visited registry root s place) (hs : s.resolve place.text = .ok spec)
    (hi : s.library[i]? = some entry) (hid : entry.referenceId = none) :
    .entryWithoutReference (place.hop (.library i)) ∈ (checkSchema registry root).problems := by
  obtain ⟨visible, hfound⟩ := h
  apply hfound
  apply (mem_node hs).2 (.inl (mem_entries.2 ⟨i, entry, hi, .inr _⟩))
  simp only [EntryProblem, hid, Nat.zero_add]

theorem mem_rest_of_plugin {spec : Spec} {kind : PluginKind} {ref : PluginRef}
    (hk : (kind, ref) ∈ spec.plugins)
    (hp : p ∈ (plugin registry kind ref path scope).problems) :
    p ∈ (rest registry s path scope spec).problems := by
  cases spec with
  | stage g d settings =>
    rcases List.mem_cons.1 hk with heq | hk
    · cases heq
      exact List.mem_append_left _ hp
    · cases List.mem_singleton.1 hk
      exact List.mem_append_right _ hp
  | synchronizer children fan => cases hk
  | wrap w c =>
    cases List.mem_singleton.1 hk
    exact List.mem_append_left _ hp
  | generator g =>
    cases List.mem_singleton.1 hk
    exact List.mem_append_right _ hp

theorem found_plugin {spec : Spec} {kind : PluginKind} {ref : PluginRef} {e : BuildError}
    (h : Visited registry root s place) (hs : s.resolve place.text = .ok spec)
    (hk : (kind, ref) ∈ spec.plugins) (he : registry.mergedConfig kind ref = .error e) :
    .plugin place e ∈ (checkSchema registry root).problems := by
  obtain ⟨visible, hfound⟩ := h
  apply hfound
  apply (mem_node hs).2 (.inr (mem_rest_of_plugin hk _))
  rw [plugin, he]
  exact List.mem_singleton_self _

theorem place?_plugin {kind : PluginKind} {ref : PluginRef}
    (hp : p ∈ (plugin registry kind ref path scope).problems) : p.place? = some path := by
  unfold plugin at hp
  split at hp
  · cases List.mem_singleton.1 hp
    rfl
  split at hp
  · split at hp
    · cases hp
    · cases List.mem_singleton.1 hp
      rfl
  · cases List.mem_singleton.1 hp
    rfl
  · cases hp

theorem place?_entryProblem {taken : String → Prop} {entry : Schema}
    (h : EntryProblem path taken entry p) : p.place? = some path := by
  unfold EntryProblem at h
  split at h
  · rw [h]
    rfl
  · rw [h.2]
    rfl

/-- What is found inside a node is about places around which all nodes resolve. -/
theorem openAt_of_mem (hat : root.at? path.hops = some s) (ho : root.OpenAt path)
    (hp : p ∈ (node registry s visible path).problems) (hplace : p.place? = some place) :
    root.OpenAt place := by
  induction s using Schema.induction generalizing visible path with
  | node s ihl ihc ihw =>
    cases hr : s.resolve path.text with
    | error e =>
      rw [node_of_error hr] at hp
      cases List.mem_singleton.1 hp
      cases hplace
    | ok spec =>
      have hself (h : p.place? = some path) : root.OpenAt place := by
        cases hplace.symm.trans h
        exact ho
      have hfits := Schema.resolve_fits hr
      rcases (mem_node hr).1 hp with hp | hp
      · obtain ⟨k, entry, hk, hp⟩ := mem_entries.1 hp
        have hinside := ho.hop (h := .library k) hat hr
        rw [Nat.zero_add] at hp
        rcases hp with hp | hp
        · have hat' : root.at? (path.hop (.library k)).hops = some entry :=
            (Schema.at?_hop hat).trans hk
          exact ihl entry (List.mem_of_getElem? hk) hat' hinside hp
        · cases hplace.symm.trans (place?_entryProblem hp)
          exact hinside
      cases spec with
      | stage g d settings =>
        rcases List.mem_append.1 hp with hp | hp
        · exact hself (place?_plugin hp)
        · exact hself (place?_plugin hp)
      | synchronizer children fan =>
        rcases List.mem_append.1 hp with hp | hp
        · split at hp <;> cases hp
        · obtain ⟨k, c, hk, hp⟩ := mem_childNodes.1 hp
          have hat' : root.at? (path.hop (.children k)).hops = some c :=
            (Schema.at?_hop hat).trans hk
          rw [Nat.zero_add] at hp
          exact ihc c (List.mem_of_getElem? hk) hat' (ho.hop hat hr) hp
      | wrap w c =>
        rcases List.mem_append.1 hp with hp | hp
        · exact hself (place?_plugin hp)
        · have hat' : root.at? (path.hop .child).hops = some c :=
            (Schema.at?_hop hat).trans hfits.2
          rw [hfits.2, childNode] at hp
          exact ihw c hfits.2 hat' (ho.hop hat hr) hp
      | generator g =>
        rcases List.mem_append.1 hp with hp | hp
        · split at hp <;> cases hp
        · exact hself (place?_plugin hp)

end Check

theorem Templates.get_of_not_contains {α : Type} {t : Templates α} {name : String}
    (h : t.contains name = false) : ∃ e, t.get name = .error e := by
  have hfind : t.find? name = none := by
    rw [find?, List.find?_eq_none]
    rw [contains, List.any_eq_false] at h
    exact h
  rw [get, hfind]
  exact ⟨_, rfl⟩

theorem Registry.mergedConfig_of_not_contains {registry : Registry} {kind : PluginKind}
    {ref : PluginRef} (h : registry.contains kind ref.name = false) :
    ∃ e, registry.mergedConfig kind ref = .error e := by
  cases kind with
  | generator =>
    obtain ⟨e, he⟩ := Templates.get_of_not_contains h
    exact ⟨e, Templates.mergedConfig_error.2 he⟩
  | wrapper =>
    obtain ⟨e, he⟩ := Templates.get_of_not_contains h
    exact ⟨e, Templates.mergedConfig_error.2 he⟩
  | datajet =>
    obtain ⟨e, he⟩ := Templates.get_of_not_contains h
    exact ⟨e, Templates.mergedConfig_error.2 he⟩

/-- A check finds what is wrong with a node of a schema if every node around it resolves: that
it does not resolve, that it is an entry of a library without an id, and that it names a plugin
that is not there. Of a node inside one that does not resolve it says nothing. -/
theorem checkSchema_visits (registry : Registry) (root s : Schema) (place : NodePath)
    (h : root.Holds place s) :
    (root.OpenAt place →
      (∀ e, s.resolve place.text = .error e →
        e.message ∈ (checkSchema registry root).problems.map Problem.message) ∧
      (∀ outer i, place = NodePath.hop outer (.library i) → s.referenceId = none →
        place.text ++ ": library entries require a 'referenceId'" ∈
          (checkSchema registry root).problems.map Problem.message) ∧
      ∀ spec kind ref, s.resolve place.text = .ok spec → (kind, ref) ∈ spec.plugins →
        registry.contains kind ref.name = false →
          ∃ e, registry.mergedConfig kind ref = .error e ∧ place.text ++ ": " ++ e.message ∈
            (checkSchema registry root).problems.map Problem.message) ∧
    (¬root.OpenAt place →
      ∀ p ∈ (checkSchema registry root).problems, p.place? ≠ some place) := by
  refine ⟨fun ho => ⟨fun e he => ?_, fun outer i hplace hid => ?_, ?_⟩,
    fun hclosed p hp hplace => ?_⟩
  · have hvisited : Check.Visited registry root s place := Check.visited_of_openAt h ho
    have hfound := Check.found_unresolved hvisited he
    exact List.mem_map_of_mem hfound
  · subst hplace
    obtain ⟨s', hs, hi⟩ := h.of_library
    obtain ⟨spec, hr⟩ := ho.resolves hs.at?_eq
    have hvisited : Check.Visited registry root s' outer := Check.visited_of_openAt hs ho.outer
    have hfound := Check.found_entryWithoutReference hvisited hr hi hid
    exact List.mem_map_of_mem hfound
  · intro spec kind ref hr hk hunknown
    obtain ⟨e, he⟩ := Registry.mergedConfig_of_not_contains hunknown
    have hfound := Check.found_plugin (Check.visited_of_openAt h ho) hr hk he
    exact ⟨e, he, List.mem_map_of_mem hfound⟩
  · have hroot : root.at? NodePath.root.hops = some root := rfl
    exact hclosed (Check.openAt_of_mem hroot Schema.openAt_root hp hplace)

/-- Children of which the first is of no known kind, and the second names no plugin that is
there. -/
def brokenSiblings : Schema where
  component := some "synchronizer"
  children := [{ component := some "bogus" }, .ofGenerator (some "a") ⟨"nope", none⟩]

theorem checkSchema_visits_brokenSiblings :
    brokenSiblings.Holds (.hop .root (.children 1)) (.ofGenerator (some "a") ⟨"nope", none⟩) ∧
      ∃ e, Registry.builtin.mergedConfig .generator ⟨"nope", none⟩ = .error e ∧
        "$.children[1]" ++ ": " ++ e.message ∈
          (checkSchema Registry.builtin brokenSiblings).problems.map Problem.message := by
  have h : brokenSiblings.Holds (.hop .root (.children 1))
      (.ofGenerator (some "a") ⟨"nope", none⟩) :=
    .children .root rfl rfl
  have hr : brokenSiblings.resolve NodePath.root.text =
      .ok (.synchronizer brokenSiblings.children {}) := rfl
  have ho : brokenSiblings.OpenAt (.hop .root (.children 1)) := Schema.openAt_root.hop rfl hr
  obtain ⟨_, _, hplugin⟩ := (checkSchema_visits Registry.builtin brokenSiblings _ _ h).1 ho
  exact ⟨h, hplugin (.generator ⟨"nope", none⟩) .generator ⟨"nope", none⟩ rfl
    (List.mem_singleton_self _) rfl⟩

/-- A synchronizer that does not resolve, with a child that does not either. -/
def brokenTwice : Schema where
  component := some "synchronizer"
  config := some (.object [("maxConcurrency", .nat 0)])
  children := [{ component := some "bogus" }]

theorem not_forall_visited : ¬∀ (registry : Registry) (root s : Schema) (place : NodePath),
    root.Holds place s → ∀ e, s.resolve place.text = .error e →
      e.message ∈ (checkSchema registry root).problems.map Problem.message := by
  intro h
  have hholds : brokenTwice.Holds (.hop .root (.children 0)) { component := some "bogus" } :=
    .children .root rfl rfl
  have hfound := h Registry.builtin brokenTwice _ _ hholds (.unsupportedComponent "bogus") rfl
  have hone : (checkSchema Registry.builtin brokenTwice).problems.map Problem.message =
      ["Malformed schema at $: 'config.maxConcurrency' must be at least 1"] := rfl
  rw [hone] at hfound
  revert hfound
  decide

end DataPipeline
