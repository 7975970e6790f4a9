import DataPipeline.Outcome.Basic
import Mathlib.Data.List.Basic

namespace DataPipeline

namespace Outcome

/-- Induction over an outcome, with a hypothesis for each outcome it holds. -/
@[elab_as_elim]
theorem induction {motive : Outcome → Prop}
    (outcome : ∀ o : Outcome, (∀ c ∈ o.children, motive c) → motive o) (o : Outcome) :
    motive o := by
  refine @Outcome.rec motive (fun os => ∀ o ∈ os, motive o) ?_ ?_ ?_ o
  · intro _ _ _ _ _ _ ih
    exact outcome _ ih
  · nofun
  · intro c rest ihc ihrest o ho
    rcases List.mem_cons.1 ho with rfl | ho
    · exact ihc
    · exact ihrest o ho

mutual

/-- The outcomes of the stages and generators in an outcome, from left to right. -/
def leaves : Outcome → List Outcome
  | ⟨stage, validation, execution, pending, children, errors⟩ =>
    match stage.kind with
    | .stage | .generator => [⟨stage, validation, execution, pending, children, errors⟩]
    | .synchronizer | .wrap => leavesOf children

def leavesOf : List Outcome → List Outcome
  | [] => []
  | o :: rest => o.leaves ++ leavesOf rest

end

/-- An outcome is another one or below it. -/
inductive PartOf : Outcome → Outcome → Prop where
  | refl (o : Outcome) : PartOf o o
  | inside {q c o : Outcome} (hc : c ∈ o.children) (h : PartOf q c) : PartOf q o

def IsLeaf (o : Outcome) : Prop := o.stage.kind = .stage ∨ o.stage.kind = .generator

/-- The flags of an outcome are those of its leaves taken together; only a leaf has errors, and
has them just if its execution failed. -/
structure Consistent (o : Outcome) : Prop where
  validation : o.isValidationSuccess = o.leaves.all (·.isValidationSuccess)
  execution : o.isExecutionSuccess = o.leaves.all (·.isExecutionSuccess)
  pending : o.pendingValidators = o.leaves.flatMap (·.pendingValidators)
  inner : ¬o.IsLeaf → o.errors = []
  leaf : o.IsLeaf → (o.isExecutionSuccess = true ↔ o.errors = [])
  invalid : o.isValidationSuccess = false → o.isExecutionSuccess = false

variable {o q : Outcome} {os : List Outcome} {d : Descriptor}

theorem leavesOf_eq : leavesOf os = os.flatMap leaves := by
  induction os with
  | nil => rfl
  | cons o os ih => rw [leavesOf, ih, List.flatMap_cons]

theorem leaves_of_isLeaf (h : o.IsLeaf) : o.leaves = [o] := by
  obtain ⟨stage, validation, execution, pending, children, errors⟩ := o
  rcases h with h | h <;> simp only at h <;> simp only [leaves, h]

theorem leaves_of_not_isLeaf (h : ¬o.IsLeaf) : o.leaves = o.children.flatMap leaves := by
  obtain ⟨stage, validation, execution, pending, children, errors⟩ := o
  rw [leaves]
  cases hk : stage.kind with
  | stage => exact absurd (.inl hk) h
  | synchronizer => exact leavesOf_eq
  | wrap => exact leavesOf_eq
  | generator => exact absurd (.inr hk) h

theorem partOf_of_mem_leaves (h : q ∈ o.leaves) : q.PartOf o ∧ q.IsLeaf := by
  induction o using induction with
  | outcome o ih =>
    by_cases hleaf : o.IsLeaf
    · rw [leaves_of_isLeaf hleaf, List.mem_singleton] at h
      subst h
      exact ⟨.refl _, hleaf⟩
    · rw [leaves_of_not_isLeaf hleaf, List.mem_flatMap] at h
      obtain ⟨c, hc, h⟩ := h
      obtain ⟨hpart, hq⟩ := ih c hc h
      exact ⟨.inside hc hpart, hq⟩

theorem partOf_childless (ho : o.children = []) (h : q.PartOf o) : q = o := by
  cases h with
  | refl => rfl
  | inside hc h => simp [ho] at hc

theorem consistent_of_isLeaf (h : o.IsLeaf) (hx : o.isExecutionSuccess = true ↔ o.errors = [])
    (hv : o.isValidationSuccess = false → o.isExecutionSuccess = false) : o.Consistent where
  validation := by simp [leaves_of_isLeaf h]
  execution := by simp [leaves_of_isLeaf h]
  pending := by simp [leaves_of_isLeaf h]
  inner hn := absurd h hn
  leaf _ := hx
  invalid := hv

theorem consistent_aggregate (hd : ¬(aggregate d os).IsLeaf) (h : ∀ o ∈ os, o.Consistent) :
    (aggregate d os).Consistent where
  validation := by
    rw [leaves_of_not_isLeaf hd, List.all_flatMap, Bool.eq_iff_iff]
    simp only [aggregate, List.all_eq_true]
    exact forall₂_congr fun o ho => by rw [(h o ho).validation, List.all_eq_true]
  execution := by
    rw [leaves_of_not_isLeaf hd, List.all_flatMap, Bool.eq_iff_iff]
    simp only [aggregate, List.all_eq_true]
    exact forall₂_congr fun o ho => by rw [(h o ho).execution, List.all_eq_true]
  pending := by
    rw [leaves_of_not_isLeaf hd, List.flatMap_assoc]
    exact List.flatMap_congr fun o ho => (h o ho).pending
  inner _ := rfl
  leaf hl := absurd hl hd
  invalid hv := by
    simp only [aggregate, List.all_eq_false, Bool.not_eq_true] at hv ⊢
    obtain ⟨o, ho, hv⟩ := hv
    exact ⟨o, ho, (h o ho).invalid hv⟩

theorem isSuccess_iff (h : ∀ q : Outcome, q.PartOf o → q.Consistent) :
    o.isSuccess = true ↔ ∀ leaf ∈ o.leaves, leaf.errors = [] := by
  have hroot := h o (.refl o)
  rw [isSuccess, hroot.validation, hroot.execution, Bool.and_eq_true, List.all_eq_true,
    List.all_eq_true]
  constructor
  · rintro ⟨_, hx⟩ leaf hmem
    obtain ⟨hpart, hleaf⟩ := partOf_of_mem_leaves hmem
    exact ((h leaf hpart).leaf hleaf).1 (hx leaf hmem)
  · intro herrors
    have hx : ∀ leaf ∈ o.leaves, leaf.isExecutionSuccess = true := by
      intro leaf hmem
      obtain ⟨hpart, hleaf⟩ := partOf_of_mem_leaves hmem
      exact ((h leaf hpart).leaf hleaf).2 (herrors leaf hmem)
    refine ⟨fun leaf hmem => ?_, hx⟩
    by_contra hv
    have hfailed := (h leaf (partOf_of_mem_leaves hmem).1).invalid (Bool.eq_false_iff.2 hv)
    rw [hx leaf hmem] at hfailed
    cases hfailed

theorem isFinal_iff (h : o.Consistent) :
    o.isFinal = true ↔ ∀ leaf ∈ o.leaves, leaf.pendingValidators = [] := by
  rw [isFinal, h.pending, List.isEmpty_iff, List.flatMap_eq_nil_iff]

end Outcome

end DataPipeline
