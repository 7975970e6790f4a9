import DataPipeline.Proofs.Node.Reports
import DataPipeline.Proofs.Node.Views
import DataPipeline.Proofs.Run.Elapsed
import Mathlib.Data.List.MinMax

namespace DataPipeline

open Activity

section Repetition

variable {child : Execution} {settings : RunSettings} {lo hi : Nat}

theorem ensures_repeatFrom (n i : Nat) (ctx : RunContext)
    (h : ∀ ctx, (child settings ctx).Ensures fun _ elapsed => lo ≤ elapsed ∧ elapsed ≤ hi) :
    (repeatFrom child settings ctx n i).Ensures
      fun _ elapsed => n * lo ≤ elapsed ∧ elapsed ≤ n * hi := by
  induction n generalizing i with
  | zero => exact ⟨by omega, by omega⟩
  | succ n ih =>
    rw [repeatFrom]
    apply Ensures.bind
    apply (h _).mono
    intro o first hfirst
    apply Ensures.bind
    apply (ih (i + 1)).mono
    intro os rest hrest
    rw [Nat.succ_mul, Nat.succ_mul]
    constructor
    · omega
    · omega

theorem ensures_repeatWrapper {child : NodeView} (times : Nat) (ctx : RunContext)
    (h : ∀ ctx, (child.execute settings ctx).Ensures fun _ elapsed =>
      lo ≤ elapsed ∧ elapsed ≤ hi) :
    ((repeatWrapper times).execute child settings ctx).Ensures
      fun _ elapsed => times * lo ≤ elapsed ∧ elapsed ≤ times * hi := by
  apply Ensures.bind
  exact ensures_repeatFrom times 0 ctx h

end Repetition

/-- A node that takes a millisecond. -/
def NodeView.tick : NodeView := ⟨default, none, [], fun _ _ => .sleep 1 (.done default)⟩

/-- How often a wrapper runs its child: how long it takes if the child takes a millisecond. -/
def Wrapper.times (w : Wrapper) : Nat :=
  match (w.execute .tick {} {}).run {} with
  | some (_, world) => world.now
  | none => 0

@[simp] theorem times_passthroughWrapper : passthroughWrapper.times = 1 := rfl

@[simp] theorem times_repeatWrapper (times : Nat) : (repeatWrapper times).times = times := by
  have hall : ((repeatWrapper times).execute .tick {} {}).Ensures
      fun _ elapsed => times * 1 ≤ elapsed ∧ elapsed ≤ times * 1 :=
    ensures_repeatWrapper times {} fun _ => ⟨Nat.le_refl 1, Nat.le_refl 1⟩
  obtain ⟨o, world, hrun, _, hlo, hhi⟩ := hall.run {}
  rw [Wrapper.times, hrun]
  dsimp only at hlo hhi ⊢
  omega

namespace Node

mutual

/-- By when a node has ended if each phase of a stage may take a time `t`. -/
def bound (t : Nat) : Node → Nat
  | stage _ => 3 * t
  | synchronizer children fan =>
    match fan.maxConcurrency with
    | none => (boundsOf t children).foldr max 0
    | some _ => (boundsOf t children).sum
  | wrap w child => w.times * child.bound t
  | generator _ => 0

def boundsOf (t : Nat) : List Node → List Nat
  | [] => []
  | n :: rest => n.bound t :: boundsOf t rest

end

theorem boundsOf_eq {t : Nat} {nodes : List Node} :
    boundsOf t nodes = nodes.map (·.bound t) := by
  induction nodes with
  | nil => rfl
  | cons n nodes ih => rw [boundsOf, ih, List.map_cons]

end Node

/-- A stage ends by three times the limit, and by two if it is refused. -/
theorem Stage.ensures_execute (s : Stage) (t : Nat) (ctx : RunContext) :
    (s.execute ⟨some t⟩ ctx).Ensures fun o elapsed =>
      elapsed ≤ 3 * t ∧ (o.isValidationSuccess = false → elapsed ≤ 2 * t) := by
  apply Ensures.bind
  apply (ensures_cutAfter _ t).mono
  intro first firstTime hfirst
  apply Ensures.bind
  apply (ensures_cutAfter _ t).mono
  intro second secondTime hsecond
  dsimp only
  split
  next hinvalid =>
    intro _
    constructor
    · omega
    · intro _
      omega
  next hvalid =>
    apply Ensures.bind
    apply (ensures_cutAfter _ t).mono
    intro errors drainTime hdrain answer
    constructor
    · omega
    · intro hinvalid
      rw [Outcome.foldl_fail] at hinvalid
      rw [hinvalid] at hvalid
      exact absurd rfl hvalid

namespace Node

variable {n : Node}

/-- A tree ends by its bound. -/
theorem ensures_execute (hn : n.Shaped) (t : Nat) (ctx : RunContext) :
    (n.execute ⟨some t⟩ ctx).Ensures fun _ elapsed => elapsed ≤ n.bound t := by
  induction hn generalizing ctx with
  | stage s =>
    apply (s.ensures_execute t ctx).mono
    intro o elapsed helapsed
    exact helapsed.1
  | @synchronizer children fan hlimit hchildren ih =>
    have hchild : ∀ c ∈ children,
        (c.execute ⟨some t⟩ ctx).Ensures fun _ elapsed => elapsed ≤ c.bound t :=
      fun c hc => ih c hc ctx
    rw [execute_synchronizer, bound, boundsOf_eq]
    apply Ensures.bind
    obtain ⟨limit⟩ := fan
    cases limit with
    | none =>
      apply ensures_fanOut_together
      intro p hp
      obtain ⟨c, hc, rfl⟩ := List.mem_map.1 hp
      apply (hchild c hc).mono
      intro _ elapsed helapsed
      exact List.le_max_of_le' 0 (List.mem_map_of_mem hc) helapsed
    | some limit =>
      apply ensures_fanOut_limited hlimit
      rw [List.forall₂_map_left_iff, List.forall₂_map_right_iff, List.forall₂_same]
      exact hchild
  | passthrough h ih =>
    rw [bound, times_passthroughWrapper, Nat.one_mul]
    exact ih ctx
  | @repeated times c htimes h ih =>
    rw [bound, times_repeatWrapper]
    have hchild : ∀ ctx, (c.execute ⟨some t⟩ ctx).Ensures
        fun _ elapsed => 0 ≤ elapsed ∧ elapsed ≤ c.bound t := by
      intro ctx
      apply (ih ctx).mono
      intro _ elapsed helapsed
      exact ⟨Nat.zero_le elapsed, helapsed⟩
    apply (ensures_repeatWrapper times ctx hchild).mono
    intro _ elapsed helapsed
    exact helapsed.2
  | generator g => exact Nat.zero_le _

theorem Shaped.partOf {m : Node} (hn : n.Shaped) (hm : m.PartOf n) : m.Shaped := by
  induction hm with
  | refl => exact hn
  | inside hc h ih =>
    cases hn with
    | stage | generator => cases hc
    | synchronizer hlimit hchildren => exact ih (hchildren _ hc)
    | passthrough hchild | repeated htimes hchild =>
      cases List.mem_singleton.1 hc
      exact ih hchild

end Node

/-- With a time limit a pipeline of any generators and sinks ends in every world, and by its
bound. A stage in it takes at most three times the limit, and two if it is refused, whatever the
world answers; no synchronizer is without room for a child, and what the bound takes a wrapper
to repeat is what it was made to repeat. -/
theorem execute_bounded (registry : Registry)
    (hw : registry.wrappers = Registry.builtin.wrappers) (schema : Schema)
    (context : BuildContext) (n : Node)
    (hn : (buildPipeline registry schema context).result = .ok n) (t : Nat)
    (ctx : RunContext) (w : World) :
    (∃ o w', (n.execute ⟨some t⟩ ctx).run w = some (o, w') ∧ w.now ≤ w'.now ∧
      w'.now - w.now ≤ n.bound t) ∧
    (∀ s ∈ n.stages, ∀ ctx, (s.execute ⟨some t⟩ ctx).Ensures fun o elapsed =>
      elapsed ≤ 3 * t ∧ (o.isValidationSuccess = false → elapsed ≤ 2 * t)) ∧
    (∀ children fan, (Node.synchronizer children fan).PartOf n → fan.maxConcurrency ≠ some 0) ∧
    ∀ wrapper child, (Node.wrap wrapper child).PartOf n →
      wrapper = passthroughWrapper ∧ wrapper.times = 1 ∨
        ∃ times, wrapper = repeatWrapper times ∧ wrapper.times = times := by
  have hshape := (buildPipeline_builtAt hn).shaped hw
  constructor
  · exact (Node.ensures_execute hshape t ctx).run w
  constructor
  · intro s _ ctx
    exact s.ensures_execute t ctx
  constructor
  · intro children fan hpart
    cases hshape.partOf hpart with
    | synchronizer hlimit h => exact hlimit
  · intro wrapper child hpart
    cases hshape.partOf hpart with
    | passthrough h => exact .inl ⟨rfl, times_passthroughWrapper⟩
    | @repeated times c htimes h => exact .inr ⟨times, rfl, times_repeatWrapper times⟩

/-- A generator whose only batch never comes, beside the built-in wrappers and sinks. -/
def stuckRegistry : Registry :=
  { Registry.builtin with
    generators :=
      { kind := .generator
        templates := [⟨"stuck", [],
          fun _ _ => .ok { name := "stuck", batches := fun _ => ⟨1, fun _ => .stall⟩ }⟩] } }

/-- A stage that is stuck, and after it one that is stuck twice. -/
def stuckStages : Schema where
  component := some "synchronizer"
  config := some (.object [("maxConcurrency", .nat 1)])
  children :=
    [{ generator := some ⟨"stuck", none⟩, datajet := some ⟨"discard", none⟩ },
      { component := some "wrap"
        config := some (.object [("wrapper", .object [("name", .string "repeat")])])
        child :=
          some { generator := some ⟨"stuck", none⟩, datajet := some ⟨"discard", none⟩ } }]

theorem execute_bounded_stuckStages :
    stuckRegistry.wrappers = Registry.builtin.wrappers ∧ ∃ n,
      (buildPipeline stuckRegistry stuckStages (.mk "" "" {} none none)).result = .ok n ∧
        n.bound 5 = 45 ∧
        ∃ o w', (n.execute ⟨some 5⟩ {}).run {} = some (o, w') ∧ w'.now ≤ 45 := by
  refine ⟨rfl, _, rfl, rfl, ?_⟩
  obtain ⟨⟨o, w', hrun, _, hbound⟩, _⟩ :=
    execute_bounded stuckRegistry rfl stuckStages (.mk "" "" {} none none) _ rfl 5 {} {}
  exact ⟨o, w', hrun, hbound⟩

end DataPipeline
