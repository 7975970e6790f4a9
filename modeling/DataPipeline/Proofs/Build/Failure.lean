import DataPipeline.Proofs.Build.Sequence

namespace DataPipeline

namespace Build

/-- A plugin of a node is refused, and those of the node before it are not. -/
def PluginStops (registry : Registry) (context : BuildContext) (e : BuildError) : Spec → Prop
  | .stage g d _ =>
    (registry.generators.create g context).result = .error e ∨
      ∃ generator, (registry.generators.create g context).result = .ok generator ∧
        (registry.datajets.create d context).result = .error e
  | .synchronizer .. => False
  | .wrap w _ => (registry.wrappers.create w context).result = .error e
  | .generator g => (registry.generators.create g context).result = .error e

/-- The build of a node in a context stops at a place with an error; all that comes before the
place is built. -/
inductive Stops (registry : Registry) :
    Schema → BuildContext → NodePath → NodePath → BuildError → Prop where
  | shape {s context path e} (h : s.resolve path.text = .error e) :
      Stops registry s context path path e
  | unnamed {s context path spec k entry entries} (hs : s.resolve path.text = .ok spec)
      (hk : s.library[k]? = some entry)
      (before : (libraryEntries registry (s.library.take k) context path 0 []).result =
        .ok entries)
      (hid : entry.referenceId = none) :
      Stops registry s context path (path.hop (.library k))
        (.malformedSchema (path.hop (.library k)).text .entryWithoutReference)
  | repeated {s context path spec k entry entries id} (hs : s.resolve path.text = .ok spec)
      (hk : s.library[k]? = some entry)
      (before : (libraryEntries registry (s.library.take k) context path 0 []).result =
        .ok entries)
      (hid : entry.referenceId = some id) (taken : id ∈ entries.map (·.1)) :
      Stops registry s context path (path.hop (.library k))
        (.duplicateReference id (path.hop (.library k)).text)
  | entry {s context path spec k entry entries id place e} (hs : s.resolve path.text = .ok spec)
      (hk : s.library[k]? = some entry)
      (before : (libraryEntries registry (s.library.take k) context path 0 []).result =
        .ok entries)
      (hid : entry.referenceId = some id) (fresh : id ∉ entries.map (·.1))
      (inner : Stops registry entry context (path.hop (.library k)) place e) :
      Stops registry s context path place e
  | plugin {s context path spec entries e} (hs : s.resolve path.text = .ok spec)
      (library : (libraryEntries registry s.library context path 0 []).result = .ok entries)
      (h : PluginStops registry (context.derive s entries) e spec) :
      Stops registry s context path path e
  | child {s context path children fan entries k c nodes place e}
      (hs : s.resolve path.text = .ok (.synchronizer children fan))
      (library : (libraryEntries registry s.library context path 0 []).result = .ok entries)
      (hk : s.children[k]? = some c)
      (before : (childNodes registry (s.children.take k)
        (context.derive s entries) path 0).result = .ok nodes)
      (inner : Stops registry c (context.derive s entries) (path.hop (.children k)) place e) :
      Stops registry s context path place e
  | wrapped {s context path w c entries wrapper place e}
      (hs : s.resolve path.text = .ok (.wrap w c))
      (library : (libraryEntries registry s.library context path 0 []).result = .ok entries)
      (before : (registry.wrappers.create w (context.derive s entries)).result = .ok wrapper)
      (inner : Stops registry c (context.derive s entries) (path.hop .child) place e) :
      Stops registry s context path place e

variable {registry : Registry} {s : Schema} {context : BuildContext} {path : NodePath}
  {e : BuildError}

theorem rest_error {spec : Spec} (hs : s.resolve path.text = .ok spec) :
    (rest registry s context path spec).result = .error e ↔
      PluginStops registry context e spec ∨
        (∃ children fan, spec = .synchronizer children fan ∧
          (childNodes registry s.children context path 0).result = .error e) ∨
        ∃ w c wrapper, spec = .wrap w c ∧
          (registry.wrappers.create w context).result = .ok wrapper ∧
          (node registry c context (path.hop .child)).result = .error e := by
  have hfits := Schema.resolve_fits hs
  cases spec with
  | stage g d settings => simp [rest, PluginStops, Traced.bind_error]
  | synchronizer children fan => simp [rest, PluginStops, Traced.bind_error]
  | wrap w c => simp [rest, PluginStops, Traced.bind_error, childNode_some hfits.2]
  | generator g => simp [rest, PluginStops, Traced.bind_error]

theorem stops_of_error (h : (node registry s context path).result = .error e) :
    ∃ place, Stops registry s context path place e := by
  induction s using Schema.induction generalizing context path with
  | node s ihl ihc ihw =>
    rcases node_error.1 h with h | ⟨spec, hs, h | ⟨entries, library, h⟩⟩
    · exact ⟨path, .shape h⟩
    · obtain ⟨k, entry, entries, hk, before, hfault⟩ := libraryEntries_error.1 h
      rw [List.append_nil, Nat.zero_add] at hfault
      unfold EntryFault at hfault
      split at hfault
      next hid =>
        subst hfault
        exact ⟨_, .unnamed hs hk before hid⟩
      next id hid =>
        split at hfault
        next taken =>
          subst hfault
          exact ⟨_, .repeated hs hk before hid taken⟩
        next fresh =>
          obtain ⟨place, inner⟩ := ihl entry (List.mem_of_getElem? hk) hfault
          exact ⟨place, .entry hs hk before hid fresh inner⟩
    · rcases (rest_error hs).1 h with
        hplugin | ⟨children, fan, rfl, hchild⟩ | ⟨w, c, wrapper, rfl, before, hchild⟩
      · exact ⟨path, .plugin hs library hplugin⟩
      · obtain ⟨k, c, nodes, hk, before, hnode⟩ := childNodes_error.1 hchild
        rw [Nat.zero_add] at hnode
        obtain ⟨place, inner⟩ := ihc c (List.mem_of_getElem? hk) hnode
        exact ⟨place, .child hs library hk before inner⟩
      · obtain ⟨place, inner⟩ := ihw c (Schema.resolve_fits hs).2 hchild
        exact ⟨place, .wrapped hs library before inner⟩

end Build

end DataPipeline
