import DataPipeline.Proofs.Build.Failure
import DataPipeline.Proofs.Check.Visits

namespace DataPipeline

/-- A context sees the declarations in some places of a schema: an id means a node that suits
the place of its innermost declaration, and it means nothing if it has none. -/
structure Sees (root : Schema) (Suits : NodePath → Node → Prop) (places : List NodePath)
    (context : BuildContext) : Prop where
  free : ∀ id, root.declaration? places id = none → context.library.get? id = none
  bound : ∀ id place, root.declaration? places id = some place →
    ∃ n, context.library.get? id = some n ∧ Suits place n

variable {registry : Registry} {root s : Schema} {Suits : NodePath → Node → Prop}
  {context : BuildContext} {place : NodePath} {entries : List (String × Node)}

namespace Sees

theorem root_context (h : context.library.entries = []) :
    Sees root Suits [] (context.withRoot root) where
  free id _ := by
    rw [BuildContext.withRoot, Library.get?, h]
    rfl
  bound _ _ := nofun

/-- A library over what can be seen makes its own declarations the innermost. -/
theorem derive (h : Sees root Suits (NodePath.enclosing place.hops) context)
    (hat : root.at? place.hops = some s)
    (library : (Build.libraryEntries registry s.library context place 0 []).result =
      .ok entries)
    (hsuits : ∀ i entry n, s.library[i]? = some entry →
      (Build.node registry entry context (place.hop (.library i))).result = .ok n →
      Suits (place.hop (.library i)) n) :
    Sees root Suits (place :: NodePath.enclosing place.hops) (context.derive s entries) where
  free id hid := by
    rw [Schema.declaration?_cons, Option.or_eq_none_iff] at hid
    rw [Lexical.derive_free hat library hid.1]
    exact h.free id hid.2
  bound id declared hid := by
    rw [Schema.declaration?_cons] at hid
    cases hd : root.declares? place id with
    | none =>
      rw [hd, Option.none_or] at hid
      rw [Lexical.derive_free hat library hd]
      exact h.bound id declared hid
    | some declared' =>
      rw [hd, Option.some_or] at hid
      cases hid
      obtain ⟨entry, n, hentry, hget, hn⟩ := Lexical.derive_bound hat library hd
      obtain ⟨i, _, hi, _, rfl⟩ := Schema.declares?_eq_some hat hd
      rw [Schema.at?_hop hat] at hentry
      exact ⟨n, hget, hsuits i entry n hentry hn⟩

end Sees

namespace Build

/-- A build that succeeds builds every node that the schema holds, in a context that sees what
can be seen at the place of the node from the outside. -/
theorem built_of_holds {n : Node} (hroot : (node registry root context .root).result = .ok n)
    (hsees : Sees root Suits [] context)
    (hsuits : ∀ {place s context n}, root.Holds place s →
      Sees root Suits (NodePath.enclosing place.hops) context →
      (node registry s context place).result = .ok n → Suits place n)
    (h : root.Holds place s) :
    ∃ context n, Sees root Suits (NodePath.enclosing place.hops) context ∧
      (node registry s context place).result = .ok n := by
  have hinside {place : NodePath} {s : Schema} {context : BuildContext}
      {entries : List (String × Node)}
      (h : root.Holds place s) (hsees : Sees root Suits (NodePath.enclosing place.hops) context)
      (library : (libraryEntries registry s.library context place 0 []).result = .ok entries) :
      Sees root Suits (place :: NodePath.enclosing place.hops) (context.derive s entries) :=
    hsees.derive h.at?_eq library fun i entry n hi hn => hsuits (h.library hi) hsees hn
  induction h with
  | root => exact ⟨context, n, hsees, hroot⟩
  | library h hi ih =>
    obtain ⟨context, n, hsees, hn⟩ := ih
    obtain ⟨entries, library, _⟩ := made_of_ok hn
    obtain ⟨published, _, _, hentry⟩ := published_of_getElem? library hi
    rw [Nat.zero_add] at hentry
    exact ⟨context, published.2, hsees, hentry⟩
  | children h hk hi ih =>
    obtain ⟨context, n, hsees, hn⟩ := ih
    obtain ⟨entries, library, hmade⟩ := made_of_ok hn
    cases hmade with
    | synchronizer _ _ hnodes =>
      obtain ⟨n', _, hn'⟩ := becomes_of_getElem? (childNodes_ok.2 hnodes) hi
      rw [Becomes, Nat.zero_add] at hn'
      exact ⟨_, n', hinside h hsees library, hn'⟩
    | stage hk' | wrap hk' | generator hk' => cases hk.symm.trans hk'
  | child h hk hc ih =>
    obtain ⟨context, n, hsees, hn⟩ := ih
    obtain ⟨entries, library, hmade⟩ := made_of_ok hn
    cases hmade with
    | wrap _ hc' _ hn' =>
      cases hc.symm.trans hc'
      exact ⟨_, _, hinside h hsees library, hn'⟩
    | stage hk' | synchronizer hk' | generator hk' => cases hk.symm.trans hk'

end Build

end DataPipeline
