import DataPipeline.Check.Basic
import DataPipeline.Proofs.Schema.Structure

namespace DataPipeline

namespace Findings

@[simp] theorem append_problems (f g : Findings) :
    (f ++ g).problems = f.problems ++ g.problems := rfl

@[simp] theorem none_problems : Findings.none.problems = [] := rfl

@[simp] theorem problem_problems (p : Problem) : (Findings.problem p).problems = [p] := rfl

@[simp] theorem doubt_problems (d : Doubt) : (Findings.doubt d).problems = [] := rfl

end Findings

namespace Check

variable {registry : Registry} {visible scope : List String} {path : NodePath} {p : Problem}

/-- What is found at a node apart from its library, in the scope of its plugins. -/
def rest (registry : Registry) (s : Schema) (path : NodePath) (scope : List String) :
    Spec → Findings
  | .stage generator datajet _ =>
    plugin registry .generator generator path scope ++
      plugin registry .datajet datajet path scope
  | .synchronizer _ _ =>
    (if s.children.isEmpty then .doubt (.idle path) else .none) ++
      childNodes registry s.children scope path 0
  | .wrap wrapper _ =>
    plugin registry .wrapper wrapper path scope ++ childNode registry s.child scope path
  | .generator generator =>
    (if s.referenceId.isNone then .doubt (.unusable path) else .none) ++
      plugin registry .generator generator path scope

theorem node_of_error {s : Schema} {e : BuildError} (h : s.resolve path.text = .error e) :
    node registry s visible path = .problem (.unresolved e) := by
  cases s
  rw [node]
  dsimp only
  rw [h]

theorem node_of_ok {s : Schema} {spec : Spec} (h : s.resolve path.text = .ok spec) :
    node registry s visible path = (entries registry s.library visible path 0 []).1 ++
      rest registry s path
        (visible ++ (entries registry s.library visible path 0 []).2) spec := by
  cases s
  rw [node]
  dsimp only
  rw [h]
  cases spec <;> rfl

theorem mem_node {s : Schema} {spec : Spec} (h : s.resolve path.text = .ok spec) :
    p ∈ (node registry s visible path).problems ↔
      p ∈ (entries registry s.library visible path 0 []).1.problems ∨
        p ∈ (rest registry s path
          (visible ++ (entries registry s.library visible path 0 []).2) spec).problems := by
  rw [node_of_ok h, Findings.append_problems, List.mem_append]

theorem mem_childNodes {children : List Schema} {index : Nat} :
    p ∈ (childNodes registry children scope path index).problems ↔
      ∃ k c, children[k]? = some c ∧
        p ∈ (node registry c scope (path.hop (.children (index + k)))).problems := by
  induction children generalizing index with
  | nil => simp [childNodes]
  | cons child children ih =>
    rw [childNodes, Findings.append_problems, List.mem_append, ih]
    constructor
    · rintro (h | ⟨k, c, hk, h⟩)
      · exact ⟨0, child, rfl, h⟩
      · refine ⟨k + 1, c, hk, ?_⟩
        rwa [show index + (k + 1) = index + 1 + k by omega]
    · rintro ⟨k, c, hk, h⟩
      cases k with
      | zero =>
        cases hk
        exact .inl h
      | succ k =>
        rw [show index + (k + 1) = index + 1 + k by omega] at h
        exact .inr ⟨k, c, hk, h⟩

/-- The ids that a library declares are those of its entries. -/
theorem mem_declared {library : List Schema} {index : Nat} {declared : List String}
    {id : String} :
    id ∈ (entries registry library visible path index declared).2 ↔
      id ∈ declared ∨ ∃ entry ∈ library, entry.referenceId = some id := by
  induction library generalizing index declared with
  | nil => simp [entries]
  | cons entry library ih =>
    rw [entries]
    cases hid : entry.referenceId with
    | none => simp [ih, hid]
    | some i =>
      by_cases hi : i ∈ declared
      · simp only [List.contains_eq_mem, hi, decide_true, ↓reduceIte, ih, List.mem_cons,
          exists_eq_or_imp, hid, Option.some.injEq]
        constructor
        · rintro (h | h)
          · exact .inl h
          · exact .inr (.inr h)
        · rintro (h | rfl | h)
          · exact .inl h
          · exact .inl hi
          · exact .inr h
      · simp [hi, ih, hid, eq_comm, or_assoc]

/-- A problem with the id of an entry, where the ids before it are given. -/
def EntryProblem (place : NodePath) (taken : String → Prop) (entry : Schema)
    (p : Problem) : Prop :=
  match entry.referenceId with
  | none => p = .entryWithoutReference place
  | some id => taken id ∧ p = .repeatedReference place id

theorem EntryProblem.congr {place : NodePath} {taken taken' : String → Prop} {entry : Schema}
    (ht : ∀ id, taken id ↔ taken' id) :
    EntryProblem place taken entry p ↔ EntryProblem place taken' entry p := by
  unfold EntryProblem
  split
  · exact Iff.rfl
  · rw [ht]

/-- Whether an id is declared before a position of a library, or was so before the library. -/
def TakenAt (declared : List String) (library : List Schema) (k : Nat) (id : String) : Prop :=
  id ∈ declared ∨ ∃ e ∈ library.take k, e.referenceId = some id

theorem takenAt_zero {declared : List String} {library : List Schema} {id : String} :
    TakenAt declared library 0 id ↔ id ∈ declared := by
  simp [TakenAt]

theorem takenAt_succ {declared declared' : List String} {entry : Schema} {library : List Schema}
    {k : Nat} {id : String} (h : id ∈ declared' ↔ id ∈ declared ∨ entry.referenceId = some id) :
    TakenAt declared' library k id ↔ TakenAt declared (entry :: library) (k + 1) id := by
  simp only [TakenAt, h, List.take_succ_cons, List.mem_cons, exists_eq_or_imp, or_assoc]

/-- A problem at a place of a library, inside the entry there or with its id. -/
def EntryFinding (registry : Registry) (visible : List String) (place : NodePath)
    (taken : String → Prop) (entry : Schema) (p : Problem) : Prop :=
  p ∈ (node registry entry visible place).problems ∨ EntryProblem place taken entry p

theorem mem_entries_cons {entry : Schema} {library : List Schema} {index : Nat}
    {declared : List String} :
    ∃ declared', (∀ id, id ∈ declared' ↔ id ∈ declared ∨ entry.referenceId = some id) ∧
      (p ∈ (entries registry (entry :: library) visible path index declared).1.problems ↔
        EntryFinding registry visible (path.hop (.library index)) (· ∈ declared) entry p ∨
          p ∈ (entries registry library visible path (index + 1) declared').1.problems) := by
  rw [entries]
  unfold EntryFinding EntryProblem
  cases hid : entry.referenceId with
  | none => exact ⟨declared, by simp, by simp [or_assoc]⟩
  | some id =>
    by_cases hi : id ∈ declared
    · refine ⟨declared, fun i => ?_, by simp [hi, or_assoc]⟩
      constructor
      · exact .inl
      · rintro (h | h)
        · exact h
        · cases h
          exact hi
    · refine ⟨declared ++ [id], by simp [eq_comm], ?_⟩
      by_cases hv : id ∈ visible <;> simp [hi, hv]

/-- The problems of a library are those of its entries. -/
theorem mem_entries {library : List Schema} {index : Nat} {declared : List String} :
    p ∈ (entries registry library visible path index declared).1.problems ↔
      ∃ k entry, library[k]? = some entry ∧
        EntryFinding registry visible (path.hop (.library (index + k)))
          (TakenAt declared library k) entry p := by
  induction library generalizing index declared with
  | nil => simp [entries]
  | cons entry library ih =>
    obtain ⟨declared', hd, h⟩ :=
      @mem_entries_cons registry visible path p entry library index declared
    rw [h, ih]
    constructor
    · rintro (h | ⟨k, e, hk, h⟩)
      · exact ⟨0, entry, rfl, h.imp_right (EntryProblem.congr fun _ => takenAt_zero).2⟩
      · refine ⟨k + 1, e, hk, ?_⟩
        rw [show index + (k + 1) = index + 1 + k by omega]
        exact h.imp_right (EntryProblem.congr fun id => takenAt_succ (hd id)).1
    · rintro ⟨k, e, hk, h⟩
      cases k with
      | zero =>
        cases hk
        exact .inl (h.imp_right (EntryProblem.congr fun _ => takenAt_zero).1)
      | succ k =>
        rw [show index + (k + 1) = index + 1 + k by omega] at h
        exact .inr ⟨k, e, hk, h.imp_right (EntryProblem.congr fun id => takenAt_succ (hd id)).2⟩

end Check

end DataPipeline
