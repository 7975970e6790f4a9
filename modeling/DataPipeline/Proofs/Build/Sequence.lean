import DataPipeline.Build.Basic
import DataPipeline.Proofs.Schema.Structure
import Mathlib.Data.List.Forall2
import Mathlib.Data.List.Nodup

namespace DataPipeline

theorem forall₂_getElem? {α β : Type} {R : α → β → Prop} {l : List α} {l' : List β}
    {k : Nat} {a : α} (h : List.Forall₂ R l l') (hk : l[k]? = some a) :
    ∃ b, l'[k]? = some b ∧ R a b := by
  induction h generalizing k with
  | nil => cases hk
  | cons hab h ih =>
    cases k with
    | zero =>
      cases hk
      exact ⟨_, rfl, hab⟩
    | succ k => exact ih hk

theorem forall₂_mem_right {α β : Type} {R : α → β → Prop} {l : List α} {l' : List β} {b : β}
    (h : List.Forall₂ R l l') (hb : b ∈ l') : ∃ a ∈ l, R a b := by
  induction h with
  | nil => cases hb
  | @cons a b' l l' hab h ih =>
    rcases List.mem_cons.1 hb with rfl | hb
    · exact ⟨a, List.mem_cons_self, hab⟩
    · obtain ⟨a', ha', hab⟩ := ih hb
      exact ⟨a', List.mem_cons_of_mem a ha', hab⟩

theorem forall₂_imp_mem {α β : Type} {R S : α → β → Prop} {l : List α} {l' : List β}
    (h : List.Forall₂ R l l') (himp : ∀ a ∈ l, ∀ b, R a b → S a b) : List.Forall₂ S l l' :=
  ((List.forall₂_and_left l l').2 ⟨fun _ ha => ha, h⟩).imp fun a b hab => himp a hab.1 b hab.2

namespace Traced

variable {α β : Type} {t : Traced α} {f : α → Traced β}

theorem result_bind : (t >>= f).result = t.result >>= fun a => (f a).result := by
  change (Traced.bind t f).result = _
  rw [Traced.bind]
  cases t.result <;> rfl

theorem bind_ok {b : β} :
    (t >>= f).result = .ok b ↔ ∃ a, t.result = .ok a ∧ (f a).result = .ok b := by
  change (Traced.bind t f).result = _ ↔ _
  cases h : t.result <;> simp [Traced.bind, h]

theorem bind_error {e : BuildError} :
    (t >>= f).result = .error e ↔
      t.result = .error e ∨ ∃ a, t.result = .ok a ∧ (f a).result = .error e := by
  change (Traced.bind t f).result = _ ↔ _
  cases h : t.result <;> simp [Traced.bind, h]

theorem mem_bind {c : FactoryCall} :
    c ∈ (t >>= f).calls ↔ c ∈ t.calls ∨ ∃ a, t.result = .ok a ∧ c ∈ (f a).calls := by
  change c ∈ (Traced.bind t f).calls ↔ _
  cases h : t.result <;> simp [Traced.bind, h]

@[simp] theorem result_ok (a : α) : (Traced.ok a).result = .ok a := rfl

@[simp] theorem result_error (e : BuildError) :
    (Traced.error e : Traced α).result = .error e := rfl

@[simp] theorem result_of (r : Except BuildError α) : (Traced.of r).result = r := rfl

@[simp] theorem calls_ok (a : α) : (Traced.ok a).calls = [] := rfl

@[simp] theorem calls_error (e : BuildError) : (Traced.error e : Traced α).calls = [] := rfl

@[simp] theorem calls_of (r : Except BuildError α) : (Traced.of r).calls = [] := rfl

end Traced

theorem Templates.mem_create {α : Type} {t : Templates α} {ref : PluginRef}
    {context : BuildContext} {call : FactoryCall} (h : call ∈ (t.create ref context).calls) :
    ∃ config, t.mergedConfig ref = .ok config ∧ call = ⟨t.kind, ref.name, config, context⟩ := by
  unfold create at h
  split at h
  · cases h
  next template ht =>
    refine ⟨_, ?_, List.mem_singleton.1 h⟩
    rw [mergedConfig, ht]
    rfl

namespace Library

theorem get?_overlay {l : Library} {entries : List (String × Node)} {id : String} :
    (l.overlay entries).get? id =
      ((entries.reverse.find? (·.1 = id)).map (·.2)).or (l.get? id) := by
  simp [get?, overlay, List.find?_append, Option.map_or]

theorem isSome_get?_overlay {l : Library} {entries : List (String × Node)} {id : String} :
    ((l.overlay entries).get? id).isSome ↔ id ∈ entries.map (·.1) ∨ (l.get? id).isSome := by
  simp [get?_overlay]

theorem get?_overlay_of_mem {l : Library} {entries : List (String × Node)}
    {id : String} {n : Node} (hnodup : (entries.map (·.1)).Nodup) (h : (id, n) ∈ entries) :
    (l.overlay entries).get? id = some n := by
  rw [get?_overlay]
  cases hfind : entries.reverse.find? (·.1 = id) with
  | none =>
    have hne := List.find?_eq_none.1 hfind (id, n) (by simpa using h)
    simp at hne
  | some found =>
    have hid : found.1 = id := by simpa using List.find?_some hfind
    have hmem : found ∈ entries := by simpa using List.mem_of_find?_eq_some hfind
    have hsame := List.inj_on_of_nodup_map hnodup hmem h hid
    rw [hsame]
    rfl

end Library

namespace Build

variable {registry : Registry} {context : BuildContext} {path : NodePath}

/-- What a node still needs once its library is there: its own plugins, and then what it
holds. -/
def rest (registry : Registry) (s : Schema) (context : BuildContext) (path : NodePath) :
    Spec → Traced Node
  | .stage generator datajet settings => do
    let g ← registry.generators.create generator context
    let d ← registry.datajets.create datajet context
    .ok (.stage ⟨path, g, d, settings⟩)
  | .synchronizer _ settings => do
    let nodes ← childNodes registry s.children context path 0
    .ok (.synchronizer nodes settings)
  | .wrap wrapper _ => do
    let w ← registry.wrappers.create wrapper context
    let n ← childNode registry s.child context path
    .ok (.wrap w n)
  | .generator generator => do
    let g ← registry.generators.create generator context
    .ok (.generator g)

theorem node_eq (s : Schema) : node registry s context path = (do
    let spec ← Traced.of (s.resolve path.text)
    let entries ← libraryEntries registry s.library context path 0 []
    rest registry s (context.derive s entries) path spec) := by
  cases s
  rw [node]
  rfl

theorem node_ok {s : Schema} {n : Node} :
    (node registry s context path).result = .ok n ↔ ∃ spec, s.resolve path.text = .ok spec ∧
      ∃ entries, (libraryEntries registry s.library context path 0 []).result = .ok entries ∧
        (rest registry s (context.derive s entries) path spec).result = .ok n := by
  rw [node_eq, Traced.bind_ok]
  simp only [Traced.result_of, Traced.bind_ok]

theorem node_error {s : Schema} {e : BuildError} :
    (node registry s context path).result = .error e ↔ s.resolve path.text = .error e ∨
      ∃ spec, s.resolve path.text = .ok spec ∧
        ((libraryEntries registry s.library context path 0 []).result = .error e ∨
          ∃ entries, (libraryEntries registry s.library context path 0 []).result =
            .ok entries ∧
            (rest registry s (context.derive s entries) path spec).result = .error e) := by
  rw [node_eq, Traced.bind_error]
  simp only [Traced.result_of, Traced.bind_error]

theorem mem_node {s : Schema} {call : FactoryCall} :
    call ∈ (node registry s context path).calls ↔ ∃ spec, s.resolve path.text = .ok spec ∧
      (call ∈ (libraryEntries registry s.library context path 0 []).calls ∨
        ∃ entries, (libraryEntries registry s.library context path 0 []).result = .ok entries ∧
          call ∈ (rest registry s (context.derive s entries) path spec).calls) := by
  rw [node_eq, Traced.mem_bind]
  simp only [Traced.result_of, Traced.calls_of, Traced.mem_bind, List.not_mem_nil, false_or]

/-- Why an entry at a place cannot be built after others: it has no id, or one that is taken, or
it cannot be built itself. -/
def EntryFault (registry : Registry) (context : BuildContext) (place : NodePath)
    (taken : List String) (entry : Schema) (e : BuildError) : Prop :=
  match entry.referenceId with
  | none => e = .malformedSchema place.text .entryWithoutReference
  | some id =>
    if id ∈ taken then e = .duplicateReference id place.text
    else (node registry entry context place).result = .error e

theorem EntryFault.congr {place : NodePath} {taken taken' : List String} {entry : Schema}
    {e : BuildError} (h : EntryFault registry context place taken entry e)
    (ht : ∀ id, id ∈ taken ↔ id ∈ taken') :
    EntryFault registry context place taken' entry e := by
  unfold EntryFault at h ⊢
  split at h
  · exact h
  · simp only [← ht]
    exact h

section Library

variable {entry : Schema} {library : List Schema} {index : Nat} {seen : List String}
  {entries : List (String × Node)} {e : BuildError}

theorem libraryEntries_cons_ok :
    (libraryEntries registry (entry :: library) context path index seen).result = .ok entries ↔
      ∃ id n more, entry.referenceId = some id ∧ id ∉ seen ∧
        (node registry entry context (path.hop (.library index))).result = .ok n ∧
        (libraryEntries registry library context path (index + 1) (id :: seen)).result =
          .ok more ∧
        entries = (id, n) :: more := by
  rw [libraryEntries]
  cases hid : entry.referenceId with
  | none => simp
  | some id =>
    by_cases hseen : id ∈ seen
    · simp [hseen]
    · simp only [List.contains_eq_mem, hseen, decide_false, Bool.false_eq_true, ↓reduceIte,
        Traced.bind_ok, Traced.result_ok, Except.ok.injEq, Option.some.injEq]
      constructor
      · rintro ⟨n, hn, more, hmore, he⟩
        exact ⟨id, n, more, rfl, hseen, hn, hmore, he.symm⟩
      · rintro ⟨_, n, more, rfl, -, hn, hmore, he⟩
        exact ⟨n, hn, more, hmore, he.symm⟩

theorem libraryEntries_cons_error :
    (libraryEntries registry (entry :: library) context path index seen).result = .error e ↔
      EntryFault registry context (path.hop (.library index)) seen entry e ∨
        ∃ id n, entry.referenceId = some id ∧ id ∉ seen ∧
          (node registry entry context (path.hop (.library index))).result = .ok n ∧
          (libraryEntries registry library context path (index + 1) (id :: seen)).result =
            .error e := by
  rw [libraryEntries, EntryFault]
  cases hid : entry.referenceId with
  | none => simp [eq_comm]
  | some id =>
    by_cases hseen : id ∈ seen
    · simp [hseen, eq_comm]
    · simp [hseen, Traced.bind_error]

/-- An entry of a library at a position, and what it is published as. -/
def Publishes (registry : Registry) (context : BuildContext) (path : NodePath)
    (entry : Schema × Nat) (published : String × Node) : Prop :=
  entry.1.referenceId = some published.1 ∧
    (node registry entry.1 context (path.hop (.library entry.2))).result = .ok published.2

/-- A library is built if each entry is, under an id that no entry before it has. -/
theorem libraryEntries_ok :
    (libraryEntries registry library context path index seen).result = .ok entries ↔
      List.Forall₂ (Publishes registry context path) (library.zipIdx index) entries ∧
        (entries.map (·.1)).Nodup ∧ ∀ id ∈ entries.map (·.1), id ∉ seen := by
  induction library generalizing index seen entries with
  | nil => cases entries <;> simp [libraryEntries]
  | cons entry library ih =>
    rw [libraryEntries_cons_ok, List.zipIdx_cons]
    constructor
    · rintro ⟨id, n, more, hid, hseen, hn, hmore, rfl⟩
      obtain ⟨h, hnodup, hfresh⟩ := ih.1 hmore
      refine ⟨.cons ⟨hid, hn⟩ h, ?_, ?_⟩
      · rw [List.map_cons, List.nodup_cons]
        exact ⟨fun hm => hfresh _ hm List.mem_cons_self, hnodup⟩
      · intro i hi
        rcases List.mem_cons.1 hi with rfl | hi
        · exact hseen
        · exact fun hs => hfresh i hi (List.mem_cons_of_mem _ hs)
    · rintro ⟨h, hnodup, hfresh⟩
      cases h with
      | @cons _ published _ more h hmore =>
        obtain ⟨hid, hn⟩ := h
        rw [List.map_cons, List.nodup_cons] at hnodup
        refine ⟨published.1, published.2, more, hid, hfresh _ List.mem_cons_self, hn, ?_, rfl⟩
        refine ih.2 ⟨hmore, hnodup.2, ?_⟩
        intro i hi hs
        rcases List.mem_cons.1 hs with rfl | hs
        · exact hnodup.1 hi
        · exact hfresh i (List.mem_cons_of_mem _ hi) hs

/-- A library that cannot be built has a first entry at fault, and all before it can be
built. -/
theorem libraryEntries_error :
    (libraryEntries registry library context path index seen).result = .error e ↔
      ∃ k entry entries, library[k]? = some entry ∧
        (libraryEntries registry (library.take k) context path index seen).result =
          .ok entries ∧
        EntryFault registry context (path.hop (.library (index + k)))
          (entries.map (·.1) ++ seen) entry e := by
  induction library generalizing index seen with
  | nil => simp [libraryEntries]
  | cons entry library ih =>
    rw [libraryEntries_cons_error]
    constructor
    · rintro (h | ⟨id, n, hid, hseen, hn, h⟩)
      · exact ⟨0, entry, [], rfl, rfl, h⟩
      · obtain ⟨k, faulty, more, hk, hmore, hfault⟩ := ih.1 h
        refine ⟨k + 1, faulty, (id, n) :: more, hk, ?_, ?_⟩
        · rw [List.take_succ_cons, libraryEntries_cons_ok]
          exact ⟨id, n, more, hid, hseen, hn, hmore, rfl⟩
        · rw [show index + (k + 1) = index + 1 + k by omega]
          exact hfault.congr fun i =>
            by simp only [List.mem_append, List.mem_cons, List.map_cons]; tauto
    · rintro ⟨k, faulty, entries, hk, hentries, hfault⟩
      cases k with
      | zero =>
        cases hk
        cases hentries
        exact .inl hfault
      | succ k =>
        rw [List.take_succ_cons, libraryEntries_cons_ok] at hentries
        obtain ⟨id, n, more, hid, hseen, hn, hmore, rfl⟩ := hentries
        refine .inr ⟨id, n, hid, hseen, hn, ih.2 ⟨k, faulty, more, hk, hmore, ?_⟩⟩
        rw [show index + 1 + k = index + (k + 1) by omega]
        exact hfault.congr fun i =>
          by simp only [List.mem_append, List.mem_cons, List.map_cons]; tauto

theorem published_of_getElem? {k : Nat}
    (h : (libraryEntries registry library context path index seen).result = .ok entries)
    (hk : library[k]? = some entry) : ∃ published, entries[k]? = some published ∧
      Publishes registry context path (entry, index + k) published :=
  forall₂_getElem? (libraryEntries_ok.1 h).1 (by simp [hk])

theorem libraryEntries_ids
    (h : (libraryEntries registry library context path index seen).result = .ok entries) :
    library.map (·.referenceId) = entries.map fun published => some published.1 := by
  induction library generalizing index seen entries with
  | nil =>
    cases h
    rfl
  | cons entry library ih =>
    obtain ⟨id, n, more, hid, _, _, hmore, rfl⟩ := libraryEntries_cons_ok.1 h
    rw [List.map_cons, List.map_cons, hid, ih hmore]

theorem mem_published {id : String}
    (h : (libraryEntries registry library context path index seen).result = .ok entries) :
    id ∈ entries.map (·.1) ↔ ∃ entry ∈ library, entry.referenceId = some id := by
  have h := congrArg (some id ∈ ·) (libraryEntries_ids h)
  simpa using h.symm

theorem mem_libraryEntries {call : FactoryCall}
    (h : call ∈ (libraryEntries registry library context path index seen).calls) :
    ∃ entry ∈ library.zipIdx index,
      call ∈ (node registry entry.1 context (path.hop (.library entry.2))).calls := by
  induction library generalizing index seen with
  | nil => cases h
  | cons entry library ih =>
    rw [libraryEntries] at h
    rw [List.zipIdx_cons]
    split at h
    · cases h
    · split at h
      · cases h
      · rcases Traced.mem_bind.1 h with h | ⟨_, _, h⟩
        · exact ⟨_, List.mem_cons_self, h⟩
        rcases Traced.mem_bind.1 h with h | ⟨_, _, h⟩
        · obtain ⟨entry', hmem, hcall⟩ := ih h
          exact ⟨entry', List.mem_cons_of_mem _ hmem, hcall⟩
        · cases h

end Library

/-- A child at a position, and the node that it becomes. -/
def Becomes (registry : Registry) (context : BuildContext) (path : NodePath)
    (child : Schema × Nat) (n : Node) : Prop :=
  (node registry child.1 context (path.hop (.children child.2))).result = .ok n

theorem childNodes_ok {children : List Schema} {index : Nat} {nodes : List Node} :
    (childNodes registry children context path index).result = .ok nodes ↔
      List.Forall₂ (Becomes registry context path) (children.zipIdx index) nodes := by
  induction children generalizing index nodes with
  | nil => cases nodes <;> simp [childNodes]
  | cons child children ih =>
    rw [childNodes, List.zipIdx_cons]
    simp only [Traced.bind_ok, ih, Traced.result_ok]
    constructor
    · rintro ⟨n, hn, nodes, h, he⟩
      cases he
      exact .cons hn h
    · intro h
      cases h with
      | cons hn h => exact ⟨_, hn, _, h, rfl⟩

theorem becomes_of_getElem? {children : List Schema} {index k : Nat} {nodes : List Node}
    {child : Schema} (h : (childNodes registry children context path index).result = .ok nodes)
    (hk : children[k]? = some child) : ∃ n, nodes[k]? = some n ∧
      Becomes registry context path (child, index + k) n :=
  forall₂_getElem? (childNodes_ok.1 h) (by simp [hk])

theorem childNodes_error {children : List Schema} {index : Nat} {e : BuildError} :
    (childNodes registry children context path index).result = .error e ↔
      ∃ k child nodes, children[k]? = some child ∧
        (childNodes registry (children.take k) context path index).result = .ok nodes ∧
        (node registry child context (path.hop (.children (index + k)))).result = .error e := by
  induction children generalizing index with
  | nil => simp [childNodes]
  | cons child children ih =>
    rw [childNodes]
    constructor
    · intro h
      rcases Traced.bind_error.1 h with h | ⟨n, hn, h⟩
      · exact ⟨0, child, [], rfl, rfl, h⟩
      rcases Traced.bind_error.1 h with h | ⟨_, _, h⟩
      · obtain ⟨k, child', nodes, hk, hnodes, he⟩ := ih.1 h
        refine ⟨k + 1, child', n :: nodes, hk, ?_, ?_⟩
        · rw [List.take_succ_cons, childNodes, Traced.bind_ok]
          exact ⟨n, hn, Traced.bind_ok.2 ⟨nodes, hnodes, rfl⟩⟩
        · rw [show index + (k + 1) = index + 1 + k by omega]
          exact he
      · cases h
    · rintro ⟨k, child', nodes, hk, hnodes, he⟩
      rw [Traced.bind_error]
      cases k with
      | zero =>
        cases hk
        exact .inl he
      | succ k =>
        rw [List.take_succ_cons, childNodes] at hnodes
        obtain ⟨n, hn, hnodes⟩ := Traced.bind_ok.1 hnodes
        obtain ⟨nodes, hnodes, _⟩ := Traced.bind_ok.1 hnodes
        rw [show index + (k + 1) = index + 1 + k by omega] at he
        exact .inr ⟨n, hn, Traced.bind_error.2 (.inl (ih.2 ⟨k, child', nodes, hk, hnodes, he⟩))⟩

theorem mem_childNodes {children : List Schema} {index : Nat} {call : FactoryCall}
    (h : call ∈ (childNodes registry children context path index).calls) :
    ∃ child ∈ children.zipIdx index,
      call ∈ (node registry child.1 context (path.hop (.children child.2))).calls := by
  induction children generalizing index with
  | nil => cases h
  | cons child children ih =>
    rw [childNodes] at h
    rw [List.zipIdx_cons]
    rcases Traced.mem_bind.1 h with h | ⟨_, _, h⟩
    · exact ⟨_, List.mem_cons_self, h⟩
    rcases Traced.mem_bind.1 h with h | ⟨_, _, h⟩
    · obtain ⟨child', hmem, hcall⟩ := ih h
      exact ⟨child', List.mem_cons_of_mem _ hmem, hcall⟩
    · cases h

section Made

variable {s : Schema} {n : Node}

theorem childNode_some {c : Schema} (h : s.child = some c) :
    childNode registry s.child context path = node registry c context (path.hop .child) := by
  rw [h, childNode]

/-- What is made of a node whose library is there: its plugins are created, and the nodes inside
it built. -/
inductive Made (registry : Registry) (s : Schema) (context : BuildContext) (path : NodePath) :
    Node → Prop where
  | stage {ref sink g d settings} (kind : s.kind = .ok .stage)
      (generator : s.generator = some ref)
      (hg : (registry.generators.create ref context).result = .ok g)
      (hd : (registry.datajets.create sink context).result = .ok d) :
      Made registry s context path (.stage ⟨path, g, d, settings⟩)
  | synchronizer {nodes fan} (kind : s.kind = .ok .synchronizer)
      (limit : fan.maxConcurrency ≠ some 0)
      (h : List.Forall₂ (Becomes registry context path) s.children.zipIdx nodes) :
      Made registry s context path (.synchronizer nodes fan)
  | wrap {ref c w n} (kind : s.kind = .ok .wrap) (child : s.child = some c)
      (hw : (registry.wrappers.create ref context).result = .ok w)
      (h : (node registry c context (path.hop .child)).result = .ok n) :
      Made registry s context path (.wrap w n)
  | generator {ref g} (kind : s.kind = .ok .generator) (generator : s.generator = some ref)
      (hg : (registry.generators.create ref context).result = .ok g) :
      Made registry s context path (.generator g)

theorem made_of_rest {spec : Spec} (hs : s.resolve path.text = .ok spec)
    (h : (rest registry s context path spec).result = .ok n) :
    Made registry s context path n := by
  have hfits := Schema.resolve_fits hs
  cases spec with
  | stage ref sink settings =>
    obtain ⟨g, hg, h⟩ := Traced.bind_ok.1 h
    obtain ⟨d, hd, h⟩ := Traced.bind_ok.1 h
    cases h
    exact .stage hfits.1 hfits.2.1 hg hd
  | synchronizer children fan =>
    obtain ⟨nodes, hnodes, h⟩ := Traced.bind_ok.1 h
    cases h
    exact .synchronizer hfits.1 hfits.2.2 (childNodes_ok.1 hnodes)
  | wrap ref c =>
    obtain ⟨w, hw, h⟩ := Traced.bind_ok.1 h
    obtain ⟨n, hn, h⟩ := Traced.bind_ok.1 h
    cases h
    rw [childNode_some hfits.2] at hn
    exact .wrap hfits.1 hfits.2 hw hn
  | generator ref =>
    obtain ⟨g, hg, h⟩ := Traced.bind_ok.1 h
    cases h
    exact .generator hfits.1 hfits.2 hg

theorem made_of_ok (h : (node registry s context path).result = .ok n) :
    ∃ entries, (libraryEntries registry s.library context path 0 []).result = .ok entries ∧
      Made registry s (context.derive s entries) path n := by
  obtain ⟨spec, hs, entries, library, h⟩ := node_ok.1 h
  exact ⟨entries, library, made_of_rest hs h⟩

theorem entry_of_mem_published {library : List Schema} {entries : List (String × Node)}
    {published : String × Node}
    (h : (libraryEntries registry library context path 0 []).result = .ok entries)
    (hmem : published ∈ entries) : ∃ i entry, library[i]? = some entry ∧
      (node registry entry context (path.hop (.library i))).result = .ok published.2 := by
  obtain ⟨⟨entry, i⟩, hentry, _, hn⟩ := forall₂_mem_right (libraryEntries_ok.1 h).1 hmem
  exact ⟨i, entry, List.mem_zipIdx_iff_getElem?.1 hentry, hn⟩

theorem child_of_mem_nodes {children : List Schema} {nodes : List Node}
    (h : List.Forall₂ (Becomes registry context path) children.zipIdx nodes)
    (hmem : n ∈ nodes) :
    ∃ i child, children[i]? = some child ∧
      (node registry child context (path.hop (.children i))).result = .ok n := by
  obtain ⟨⟨child, i⟩, hchild, hn⟩ := forall₂_mem_right h hmem
  exact ⟨i, child, List.mem_zipIdx_iff_getElem?.1 hchild, hn⟩

theorem child_of_nodes_at {children : List Schema} {nodes : List Node} {i : Nat}
    (h : List.Forall₂ (Becomes registry context path) children.zipIdx nodes)
    (hi : nodes[i]? = some n) :
    ∃ child, children[i]? = some child ∧
      (node registry child context (path.hop (.children i))).result = .ok n := by
  obtain ⟨⟨child, j⟩, hat, hn⟩ := forall₂_getElem? h.flip hi
  rw [List.getElem?_zipIdx, Nat.zero_add] at hat
  obtain ⟨_, hchild, heq⟩ := Option.map_eq_some_iff.1 hat
  cases heq
  exact ⟨child, hchild, hn⟩

end Made

end Build

end DataPipeline
