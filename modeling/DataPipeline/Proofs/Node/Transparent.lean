import DataPipeline.Proofs.Build.Repicked

namespace DataPipeline

/-- A reference to the entry with an id. -/
def referenceTo (id : String) : PluginRef := ⟨"library", some [("referenceId", .string id)]⟩

/-- Two stages side by side, of which one is repeated. They drain an entry that refers to
another one. -/
def chainedReferences : Schema :=
  let stage : Schema :=
    { generator := some (referenceTo "b"), datajet := some ⟨"discard", none⟩ }
  synchronizerOf [.ofGenerator (some "a") ⟨"static", some [("records", .array [.nat 7])]⟩]
    [synchronizerOf [.ofGenerator (some "b") (referenceTo "a")]
      [stage,
        { component := some "wrap"
          config := some (.object [("wrapper", .object [("name", .string "repeat")])])
          child := some stage }]]

/-- The generator that both stages drain in the end. -/
def chainedSource (place : NodePath) : Option PluginRef :=
  if place.hops ∈ [[Hop.children 0, .children 0], [.child, .children 1, .children 0]] then
    some ⟨"static", some [("records", .array [.nat 7])]⟩
  else none

theorem refersTo_chainedSource (place : NodePath) (source : PluginRef)
    (h : chainedSource place = some source) : chainedReferences.RefersTo place source := by
  unfold chainedSource at h
  split at h
  next hplace =>
    cases h
    have hleads : chainedReferences.Leads ⟨[.library 0, .children 0]⟩ (referenceTo "a")
        ⟨"static", some [("records", .array [.nat 7])]⟩ :=
      .there rfl rfl rfl rfl (.inr rfl) rfl (.here (by decide))
    have hinner : chainedReferences.Holds (.hop .root (.children 0)) _ :=
      .children .root rfl rfl
    obtain ⟨hops⟩ := place
    simp only [List.mem_cons, List.not_mem_nil, or_false] at hplace
    rcases hplace with rfl | rfl
    · exact ⟨_, _, .children hinner rfl rfl, rfl, rfl, rfl,
        .there rfl rfl rfl rfl (.inr rfl) rfl hleads⟩
    · exact ⟨_, _, .child (.children hinner rfl rfl) rfl rfl, rfl, rfl, rfl,
        .there rfl rfl rfl rfl (.inr rfl) rfl hleads⟩
  · cases h

end DataPipeline
