import DataPipeline.Node.Execute
import DataPipeline.Proofs.Build.Tree
import DataPipeline.Proofs.Outcome.Leaves
import DataPipeline.Proofs.Run.Ends

namespace DataPipeline

namespace Outcome

/-- The outcome of a stage while its validators are asked. -/
structure Judged (d : Descriptor) (o : Outcome) : Prop where
  stage : o.stage = d
  children : o.children = []
  execution : o.isExecutionSuccess = true
  validation : o.isValidationSuccess = true ↔ o.errors = []

/-- The outcome of a stage that has come to its end. -/
structure Settled (d : Descriptor) (o : Outcome) : Prop where
  stage : o.stage = d
  children : o.children = []
  execution : o.isExecutionSuccess = true ↔ o.errors = []
  invalid : o.isValidationSuccess = false → o.isExecutionSuccess = false

variable {o : Outcome} {d : Descriptor}

theorem judged_start (d : Descriptor) : Judged d { stage := d } := ⟨rfl, rfl, rfl, by simp⟩

theorem Judged.recordVerdict (h : o.Judged d) (validator : String) (v : Verdict) :
    (o.recordVerdict validator v).Judged d := by
  cases v with
  | passed => exact h
  | failed reason => exact ⟨h.stage, h.children, h.execution, by simp [Outcome.recordVerdict]⟩
  | pending name => exact ⟨h.stage, h.children, h.execution, h.validation⟩

theorem Judged.settled (h : o.Judged d) (hv : o.isValidationSuccess = true) : o.Settled d where
  stage := h.stage
  children := h.children
  execution := by simp [h.execution, h.validation.1 hv]
  invalid := by simp [hv]

theorem Judged.settled_invalid (h : o.Judged d) (hv : ¬o.isValidationSuccess = true) :
    { o with isExecutionSuccess := false }.Settled d where
  stage := h.stage
  children := h.children
  execution := by simpa using mt h.validation.2 hv
  invalid _ := rfl

theorem foldl_fail (errors : List String) :
    errors.foldl fail o = { o with
      isExecutionSuccess := o.isExecutionSuccess && errors.isEmpty
      errors := o.errors ++ errors } := by
  induction errors generalizing o with
  | nil => cases o with | mk => simp
  | cons error errors ih => simp [ih, fail]

theorem Settled.fail (h : o.Settled d) (error : String) : (o.fail error).Settled d where
  stage := h.stage
  children := h.children
  execution := by simp [Outcome.fail]
  invalid _ := rfl

theorem Settled.foldl_fail (h : o.Settled d) (errors : List String) :
    (errors.foldl Outcome.fail o).Settled d := by
  induction errors generalizing o with
  | nil => exact h
  | cons error errors ih => exact ih (h.fail error)

end Outcome

namespace Stage

theorem ends_execute {s : Stage} {settings : RunSettings} {ctx : RunContext} {o : Outcome}
    (h : (s.execute settings ctx).Ends o) : o.Settled (Node.stage s).descriptor := by
  simp only [execute, Activity.ends_monad_bind] at h
  obtain ⟨first, _, second, _, h⟩ := h
  have hjudged :=
    ((Outcome.judged_start (Node.stage s).descriptor).recordVerdict s.generator.name
      (settle settings.stageTimeoutMs first)).recordVerdict s.datajet.name
        (settle settings.stageTimeoutMs second)
  split at h
  next hv =>
    obtain ⟨_, _, h⟩ := Activity.ends_bind.1 h
    cases h
    exact hjudged.settled_invalid (by simpa using hv)
  next hv =>
    obtain ⟨errors, _, h⟩ := Activity.ends_bind.1 h
    obtain ⟨_, _, h⟩ := Activity.ends_bind.1 h
    cases h
    exact (hjudged.settled (by simpa using hv)).foldl_fail _

end Stage

namespace Node

/-- An outcome has the shape of a node: a stage and a generator are leaves, a synchronizer holds
an outcome for each child in order, and a repeated child has as many outcomes as it has runs. -/
inductive Reports : Node → Outcome → Prop where
  | stage {s o} (hd : o.stage = (Node.stage s).descriptor) (hc : o.children = []) :
      Reports (.stage s) o
  | generator {g o} (hd : o.stage = (Node.generator g).descriptor) (hc : o.children = [])
      (hsuccess : o.isSuccess = true) : Reports (.generator g) o
  | synchronizer {children fan} {o : Outcome}
      (hd : o.stage = (Node.synchronizer children fan).descriptor)
      (hlen : o.children.length = children.length)
      (h : ∀ (i : Nat) n q, children[i]? = some n → o.children[i]? = some q → Reports n q) :
      Reports (.synchronizer children fan) o
  | passthrough {n o} (h : Reports n o) : Reports (.wrap passthroughWrapper n) o
  | repeated {times n} {o : Outcome} (hd : o.stage = ⟨.wrap, "repeat"⟩)
      (hlen : o.children.length = times) (h : ∀ q ∈ o.children, Reports n q) :
      Reports (.wrap (repeatWrapper times) n) o

/-- An outcome reports a node, and all its parts are consistent. -/
def Faithful (n : Node) (o : Outcome) : Prop :=
  n.Reports o ∧ ∀ q : Outcome, q.PartOf o → q.Consistent

theorem partOf_consistent_aggregate {d : Descriptor} {os : List Outcome}
    (hd : ¬(Outcome.aggregate d os).IsLeaf)
    (h : ∀ o ∈ os, ∀ q : Outcome, q.PartOf o → q.Consistent) (q : Outcome)
    (hq : q.PartOf (Outcome.aggregate d os)) : q.Consistent := by
  cases hq with
  | refl => exact Outcome.consistent_aggregate hd fun o ho => h o ho o (.refl o)
  | inside hc hq => exact h _ hc q hq

theorem faithful_of_childless {n : Node} {o : Outcome} (h : n.Reports o) (hc : o.children = [])
    (ho : o.Consistent) : n.Faithful o :=
  ⟨h, fun q hq => by rwa [Outcome.partOf_childless hc hq]⟩

variable {registry : Registry} {settings : RunSettings} {ctx : RunContext} {path : NodePath}
  {n : Node} {o : Outcome}

theorem faithful_of_ends (hw : registry.wrappers = Registry.builtin.wrappers)
    (hn : n.BuiltAt registry path) (h : (n.execute settings ctx).Ends o) : n.Faithful o := by
  induction hn generalizing ctx o with
  | stage hg hd =>
    have hsettled := Stage.ends_execute h
    refine faithful_of_childless (.stage hsettled.stage hsettled.children) hsettled.children ?_
    refine Outcome.consistent_of_isLeaf (.inl ?_) hsettled.execution hsettled.invalid
    rw [hsettled.stage]
    rfl
  | @synchronizer path children fan hlimit hchildren ih =>
    simp only [execute_synchronizer, Activity.ends_bind, Activity.ends_done] at h
    obtain ⟨os, hos, rfl⟩ := h
    have hall := Activity.ends_fanOut hlimit hos
    have hlen : os.length = children.length := by rw [← hall.length_eq, List.length_map]
    have hchild : ∀ (i : Nat) n q, children[i]? = some n → os[i]? = some q → n.Faithful q := by
      intro i n q hi hq
      have hmap :
          (children.map (·.execute settings ctx))[i]? = some (n.execute settings ctx) := by
        rw [List.getElem?_map, hi, Option.map_some]
      obtain ⟨q', hq', hends⟩ := forall₂_getElem? hall hmap
      cases hq.symm.trans hq'
      exact ih i n hi hends
    refine ⟨.synchronizer rfl hlen fun i n q hi hq => (hchild i n q hi hq).1, ?_⟩
    refine partOf_consistent_aggregate
      (by simp [Outcome.IsLeaf, Outcome.aggregate, descriptor, kind])
      fun q hq => ?_
    obtain ⟨i, hi⟩ := List.mem_iff_getElem?.1 hq
    have hlt := (List.getElem?_eq_some_iff.1 hi).1
    rw [hlen] at hlt
    exact (hchild i _ q (List.getElem?_eq_getElem hlt) hi).2
  | @wrap path w n hmade hchild ih =>
    rcases makes_builtin_wrapper (hw ▸ hmade) with rfl | ⟨times, _, rfl⟩
    · obtain ⟨hreports, hparts⟩ := ih h
      exact ⟨.passthrough hreports, hparts⟩
    · simp only [execute, view, repeatWrapper, Activity.ends_monad_bind,
        Activity.ends_done] at h
      obtain ⟨os, hos, rfl⟩ := h
      obtain ⟨hlen, hall⟩ := ends_repeatFrom hos
      have hchild : ∀ q ∈ os, n.Faithful q := by
        intro q hq
        obtain ⟨ctx', hends⟩ := hall q hq
        exact ih hends
      refine ⟨.repeated rfl hlen fun q hq => (hchild q hq).1, ?_⟩
      exact partOf_consistent_aggregate (by simp [Outcome.IsLeaf, Outcome.aggregate])
        fun q hq => (hchild q hq).2
  | generator hg =>
    simp only [execute, view, Activity.ends_done] at h
    subst h
    refine faithful_of_childless (.generator rfl rfl rfl) rfl ?_
    exact Outcome.consistent_of_isLeaf (.inr rfl) (by simp) fun h => by cases h

end Node

/-- A stage that is run twice. -/
def repeatedStage : Schema where
  component := some "wrap"
  config := some (.object [("wrapper", .object [("name", .string "repeat"),
    ("config", .object [("times", .nat 2)])])])
  child := some { generator := some ⟨"increment", none⟩, datajet := some ⟨"discard", none⟩ }

end DataPipeline
