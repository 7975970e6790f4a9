import DataPipeline.Proofs.Node.Reports
import DataPipeline.Proofs.Node.Views
import DataPipeline.Proofs.Run.Follows

namespace DataPipeline

open Activity

namespace Stage

variable (phase : (α : Type) → Activity α → Activity (Option α)) (s : Stage)
  (settings : RunSettings) (ctx : RunContext)

/-- The outcome of a stage when both its validators have been asked. -/
def verdict (first second : Option Verdict) : Outcome :=
  let o : Outcome := { stage := (Node.stage s).descriptor }
  let o := o.recordVerdict s.generator.name (settle settings.stageTimeoutMs first)
  o.recordVerdict s.datajet.name (settle settings.stageTimeoutMs second)

/-- A stage from then on. -/
def proceed (o : Outcome) : Activity Outcome :=
  let name := (Node.stage s).descriptor.name
  if !o.isValidationSuccess then do
    Activity.perform (.count s.path.text name .invalid)
    .done { o with isExecutionSuccess := false }
  else do
    let errors := (← phase _ (s.drain name ctx)).getD
      ["Stage timed out after " ++ toString (settings.stageTimeoutMs.getD 0) ++ " ms"]
    Activity.perform (.count s.path.text name (.call (!errors.isEmpty)))
    .done (errors.foldl Outcome.fail o)

/-- A stage whose phases are run in some way. -/
def executeIn : Activity Outcome := do
  let first ← phase _ (s.generator.validate ctx)
  let second ← phase _ (s.datajet.validate ctx)
  s.proceed phase settings ctx (s.verdict settings first second)

theorem execute_eq_executeIn :
    s.execute settings ctx =
      s.executeIn (fun _ p => p.within settings.stageTimeoutMs) settings ctx :=
  rfl

end Stage

section

variable {marks : Op → Prop} {good : Outcome → Prop} {settings settings' : RunSettings}

theorem follows_repeatFrom {child child' : Execution} {n i : Nat} {ctx : RunContext}
    (h : ∀ ctx, Follows marks (Astray good) (child settings ctx) (child' settings' ctx)) :
    Follows marks (Astray fun os => ∀ o ∈ os, good o) (repeatFrom child settings ctx n i)
      (repeatFrom child' settings' ctx n i) := by
  induction n generalizing i with
  | zero => exact .done []
  | succ n ih =>
    rw [repeatFrom, repeatFrom]
    apply Follows.bind (h _)
    · intro p hp
      apply astray_bind hp
      intro o os hos hgood
      obtain ⟨rest, _, hdone⟩ := ends_bind.1 hos
      cases hdone
      exact hgood o List.mem_cons_self
    · intro o _
      apply Follows.bind ih
      · intro p hp
        apply astray_bind hp
        intro rest os hos hgood
        cases hos
        exact fun o ho => hgood o (List.mem_cons_of_mem _ ho)
      · intro rest _
        exact .done _

/-- What is known of the outcomes of an inner node is known of those it holds. -/
def Inherited (good : Outcome → Prop) : Prop :=
  ∀ d os, ¬(Outcome.aggregate d os).IsLeaf → good (Outcome.aggregate d os) → ∀ o ∈ os, good o

variable {n : Node} {run run' : Stage → Execution}

/-- If the runs of the stages follow others, the run of the tree does. -/
theorem Node.follows_executeBy (hn : n.Shaped) (hgood : Inherited good)
    (hrun : ∀ s ∈ n.stages, ∀ ctx,
      Follows marks (Astray good) (run s settings ctx) (run' s settings' ctx))
    (ctx : RunContext) :
    Follows marks (Astray good) (n.executeBy run settings ctx)
      (n.executeBy run' settings' ctx) := by
  have haggregate {d : Descriptor} (hd : ¬(Outcome.aggregate d []).IsLeaf)
      {p q : Activity (List Outcome)}
      (h : Follows marks (Astray fun os => ∀ o ∈ os, good o) p q) :
      Follows marks (Astray good) (p.bind fun os => .done (Outcome.aggregate d os))
        (q.bind fun os => .done (Outcome.aggregate d os)) := by
    apply h.bind
    · intro p hp
      apply astray_bind hp
      intro os o ho hgood'
      cases ho
      exact hgood d os hd hgood'
    · intro os _
      exact .done _
  induction hn generalizing ctx with
  | stage s => exact hrun s List.mem_cons_self ctx
  | @synchronizer children fan hlimit hchildren ih =>
    rw [executeBy_synchronizer, executeBy_synchronizer]
    apply haggregate (by simp [Outcome.IsLeaf, Outcome.aggregate, descriptor, kind])
    apply follows_fanOut hlimit fun h => astray_interleaves h
    rw [List.forall₂_map_left_iff, List.forall₂_map_right_iff, List.forall₂_same]
    intro c hc
    apply ih c hc
    intro s hs
    exact hrun s (mem_stages_synchronizer.2 ⟨_, hc, hs⟩)
  | passthrough hchild ih => exact ih hrun ctx
  | repeated htimes hchild ih =>
    apply haggregate (by simp [Outcome.IsLeaf, Outcome.aggregate])
    exact follows_repeatFrom (ih hrun)
  | generator g => exact .done _

end

end DataPipeline
