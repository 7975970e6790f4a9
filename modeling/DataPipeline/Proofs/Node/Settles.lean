import DataPipeline.Proofs.Node.Bound

namespace DataPipeline

namespace Activity

variable {α β : Type} {p : Activity α} {f : α → Activity β}

/-- An activity ends, whatever it is answered. -/
def Settles (p : Activity α) : Prop := p.Ensures fun _ _ => True

theorem Settles.bind (hp : p.Settles) (hf : ∀ a, (f a).Settles) : (p.bind f).Settles := by
  apply Ensures.bind
  apply hp.mono
  intro a _ _
  exact hf a

theorem settles_within {limit : Option Nat} (h : limit = none → p.Settles) :
    (p.within limit).Settles := by
  cases limit with
  | none => exact (h rfl).bind fun _ => trivial
  | some ms => exact (ensures_cutAfter p ms).mono fun _ _ _ => trivial

theorem settles_replace {before after : List (Activity α)} {p' : Activity α}
    (h : ∀ q ∈ before ++ p :: after, q.Settles) (hp : p.Settles → p'.Settles) :
    ∀ q ∈ before ++ p' :: after, q.Settles := by
  simp only [List.forall_mem_append, List.forall_mem_cons] at h ⊢
  exact ⟨h.1, hp h.2.1, h.2.2⟩

theorem Interleaves.settles {results : List α} {ps : List (Activity α)} {q : Activity (List α)}
    (h : Interleaves results ps q) (hps : ∀ p ∈ ps, p.Settles) : q.Settles := by
  induction h with
  | ended results => trivial
  | first a h ih => exact ih fun p hp => hps p (List.mem_cons_of_mem _ hp)
  | sleep ms h ih => exact ih (settles_replace hps id)
  | act h ih => exact fun answer => ih answer (settles_replace hps fun hp => hp answer)
  | wait ms h ih => exact ih hps
  -- a fan-out stalls for one of its activities only, and these do not
  | stall h => exact hps _ h

end Activity

open Activity

theorem settles_repeatFrom {child : Execution} {settings : RunSettings}
    {ctx : RunContext} {n i : Nat} (h : ∀ ctx, (child settings ctx).Settles) :
    (repeatFrom child settings ctx n i).Settles := by
  induction n generalizing i with
  | zero => trivial
  | succ n ih =>
    rw [repeatFrom]
    apply (h _).bind
    intro o
    apply ih.bind
    intro os
    trivial

/-- The plugins of a stage end, whatever they are answered. -/
structure Stage.Settles (s : Stage) : Prop where
  generator : ∀ ctx, (s.generator.validate ctx).Settles
  pull : ∀ ctx i, ((s.generator.batches ctx).pull i).Settles
  datajet : ∀ ctx, (s.datajet.validate ctx).Settles
  transmit : ∀ earlier batch ctx, (s.datajet.transmit earlier batch ctx).Settles

namespace Stage

variable {s : Stage} {settings : RunSettings} {ctx : RunContext} {name : String}

theorem Settles.deliver (hs : s.Settles) (number : Nat) (item : Except Chain Batch) :
    (s.deliver name ctx number item).Settles := by
  cases item with
  | error c => trivial
  | ok batch =>
    intro earlier
    apply (hs.transmit earlier batch ctx).bind
    intro result
    cases result with
    | error c => trivial
    | ok _ => exact fun _ => trivial

theorem Settles.drainFrom (hs : s.Settles) (n i : Nat) :
    (s.drainFrom name ctx (s.generator.batches ctx) n i).Settles := by
  induction n generalizing i with
  | zero => trivial
  | succ n ih =>
    apply (hs.pull ctx i).bind
    intro item
    apply (hs.deliver (i + 1) item).bind
    intro error
    cases error with
    | none => exact ih (i + 1)
    | some error =>
      dsimp only
      split
      · exact (ih (i + 1)).bind fun _ => trivial
      · trivial

theorem settles_execute (h : settings.stageTimeoutMs = none → s.Settles) :
    (s.execute settings ctx).Settles := by
  apply (settles_within fun hlimit => (h hlimit).generator ctx).bind
  intro first
  apply (settles_within fun hlimit => (h hlimit).datajet ctx).bind
  intro second
  dsimp only
  split
  · exact fun _ => trivial
  · apply (settles_within fun hlimit => (h hlimit).drainFrom _ 0).bind
    intro errors _
    trivial

end Stage

namespace Node

variable {n : Node} {settings : RunSettings}

theorem settles_execute (hn : n.Shaped)
    (h : settings.stageTimeoutMs = none → ∀ s ∈ n.stages, s.Settles) (ctx : RunContext) :
    (n.execute settings ctx).Settles := by
  induction hn generalizing ctx with
  | stage s => exact Stage.settles_execute fun hlimit => h hlimit s List.mem_cons_self
  | @synchronizer children fan hlimit hchildren ih =>
    rw [execute_synchronizer]
    have hchild : ∀ p ∈ children.map (·.execute settings ctx), p.Settles := by
      rw [List.forall_mem_map]
      intro c hc
      apply ih c hc
      intro hnone s hs
      exact h hnone s (mem_stages_synchronizer.2 ⟨_, hc, hs⟩)
    exact ((interleaves_fanOut hlimit).settles hchild).bind fun _ => trivial
  | passthrough hchild ih => exact ih h ctx
  | repeated htimes hchild ih => exact (settles_repeatFrom (ih h)).bind fun _ => trivial
  | generator g => trivial

theorem run_isSome (hn : n.Shaped)
    (h : settings.stageTimeoutMs = none → ∀ s ∈ n.stages, s.Settles) (ctx : RunContext)
    (w : World) : ∃ o w', (n.execute settings ctx).run w = some (o, w') := by
  obtain ⟨o, w', hrun, _⟩ := (settles_execute hn h ctx).run w
  exact ⟨o, w', hrun⟩

end Node

end DataPipeline
