import DataPipeline.Run.World
import Mathlib.Data.Set.Function

namespace DataPipeline

/-- What a plugin can do; to offer and to count is for the engine. -/
def Op.OfPlugin : Op → Prop
  | .offer .. | .count .. => False
  | .print _ | .makeDirectories _ | .openFile _ | .append .. | .note _ => True

/-- How places share a disk without meeting on it. What a place is answered is determined by its
own state, and changes no other. A place is ready when its files can be written. -/
structure Tenancy where
  State : Type
  answer : String → State → (op : Op) → Option (op.Answer × State)
  Ready : String → State → Prop
  Holds : (String → State) → Disk → Prop
  sound : ∀ {own : String → State} {w : World} {place : String} {op : Op}
    {a : op.Answer} {t : State},
    op.OfPlugin → Holds own w.disk → answer place (own place) op = some (a, t) →
      (w.perform op).1 = a ∧ Holds (Function.update own place t) (w.perform op).2.disk

/-- What there is at a place. -/
structure Cell (T : Tenancy) where
  own : T.State
  offered : List Batch
  counters : Option StageMetrics

abbrev Cells (T : Tenancy) := String → Cell T

namespace Cells

open Classical in
/-- What is at some places of the one and elsewhere in the other. -/
noncomputable def patch {T : Tenancy} (P : Set String) (τ σ : Cells T) : Cells T :=
  fun place => if place ∈ P then τ place else σ place

@[simp] theorem patch_of_mem {T : Tenancy} {P : Set String} {τ σ : Cells T} {place : String}
    (h : place ∈ P) : patch P τ σ place = τ place := if_pos h

@[simp] theorem patch_of_notMem {T : Tenancy} {P : Set String} {τ σ : Cells T} {place : String}
    (h : place ∉ P) : patch P τ σ place = σ place := if_neg h

theorem patch_eq_right {T : Tenancy} {P : Set String} {τ σ : Cells T} (h : Set.EqOn σ τ P) :
    patch P τ σ = σ := by
  funext place
  by_cases hP : place ∈ P
  · rw [patch_of_mem hP, h hP]
  · exact patch_of_notMem hP

/-- An action at a place, its answer, and what is there afterwards. -/
inductive Step (T : Tenancy) (place : String) :
    Cell T → (op : Op) → op.Answer → Cell T → Prop where
  | offer (c : Cell T) (batch : Batch) :
      Step T place c (.offer place batch) c.offered { c with offered := batch :: c.offered }
  | count (c : Cell T) (stage : String) (o : Occurrence) :
      Step T place c (.count place stage o) ()
        { c with counters := some ((c.counters.getD { stage }).add o) }
  | plugin {c : Cell T} {op : Op} {a : op.Answer} {t : T.State} (hop : op.OfPlugin)
      (h : T.answer place c.own op = some (a, t)) : Step T place c op a { c with own := t }

/-- What an activity ends with when it acts at some places only and nothing else does: its
result and what is there then, or nothing if it has no end. -/
inductive Alone (T : Tenancy) (P : Set String) {α : Type} :
    Activity α → Cells T → Option (α × Cells T) → Prop where
  | done (a : α) (σ : Cells T) : Alone T P (.done a) σ (some (a, σ))
  | stall (σ : Cells T) : Alone T P .stall σ none
  | sleep {ms next σ r} (h : Alone T P next σ r) : Alone T P (.sleep ms next) σ r
  | act {op next σ r place a c} (hplace : place ∈ P) (hstep : Step T place (σ place) op a c)
      (h : Alone T P (next a) (Function.update σ place c) r) : Alone T P (.act op next) σ r

variable {T : Tenancy} {P Q : Set String} {α β : Type} {p : Activity α} {σ σ' τ : Cells T}
  {r : Option (α × Cells T)} {a : α}

theorem Alone.mono (h : Alone T P p σ r) (hPQ : P ⊆ Q) : Alone T Q p σ r := by
  induction h with
  | done a σ => exact .done a σ
  | stall σ => exact .stall σ
  | sleep h ih => exact .sleep ih
  | act hplace hstep h ih => exact .act (hPQ hplace) hstep ih

theorem Alone.bind_some {f : α → Activity β} {r' : Option (β × Cells T)}
    (h : Alone T P p σ (some (a, τ))) (hf : Alone T P (f a) τ r') :
    Alone T P (p.bind f) σ r' := by
  generalize hr : some (a, τ) = r at h
  induction h with
  | done a' σ =>
    cases hr
    exact hf
  | stall σ => cases hr
  | sleep h ih => exact .sleep (ih hr)
  | act hplace hstep h ih => exact .act hplace hstep (ih hr)

theorem Alone.bind_none {f : α → Activity β} (h : Alone T P p σ none) :
    Alone T P (p.bind f) σ none := by
  generalize hr : none = r at h
  induction h with
  | done a' σ => cases hr
  | stall σ => exact .stall σ
  | sleep h ih => exact .sleep (ih hr)
  | act hplace hstep h ih => exact .act hplace hstep (ih hr)

theorem Alone.eqOn_compl (h : Alone T P p σ (some (a, τ))) : Set.EqOn τ σ Pᶜ := by
  generalize hr : some (a, τ) = r at h
  induction h with
  | done a' σ =>
    cases hr
    exact Set.eqOn_refl _ _
  | stall σ => cases hr
  | sleep h ih => exact ih hr
  | @act op next σ r place a c hplace hstep h ih =>
    intro q hq
    have hne : q ≠ place := fun h => hq (h ▸ hplace)
    rw [ih hr hq, Function.update_of_ne hne]

/-- What an activity ends with depends on what is at its places only. -/
theorem Alone.frame (h : Alone T P p σ r) (hσ : Set.EqOn σ σ' P) :
    Alone T P p σ' (r.map fun x => (x.1, patch P x.2 σ')) := by
  induction h generalizing σ' with
  | done a σ =>
    simp only [Option.map_some, patch_eq_right hσ.symm]
    exact .done a σ'
  | stall σ => exact .stall σ'
  | sleep h ih => exact .sleep (ih hσ)
  | @act op next σ r place a c hplace hstep h ih =>
    -- an action writes at one of the places, so what agreed there before agrees there
    -- afterwards
    have hupdate : Set.EqOn (Function.update σ place c) (Function.update σ' place c) P := by
      intro q hq
      by_cases hne : q = place
      · subst hne
        simp
      · simp [hne, hσ hq]
    have hpiece : (fun x : α × Cells T => (x.1, patch P x.2 (Function.update σ' place c))) =
        fun x => (x.1, patch P x.2 σ') := by
      funext x
      refine Prod.ext rfl (funext fun q => ?_)
      by_cases hq : q ∈ P
      · simp [hq]
      · have hne : q ≠ place := fun h => hq (h ▸ hplace)
        simp [hq, hne]
    have h := ih hupdate
    rw [hpiece] at h
    exact .act hplace (hσ hplace ▸ hstep) h

end Cells

end DataPipeline
