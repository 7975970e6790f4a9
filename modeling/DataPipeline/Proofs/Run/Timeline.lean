import DataPipeline.Proofs.Run.Ends
import Mathlib.Algebra.BigOperators.Group.Multiset.Basic

namespace DataPipeline

namespace Activity

variable {α β : Type}

/-- The actions of an activity in a world, each with its time. -/
def timeline : Activity α → World → List (Nat × Op)
  | done _, _ => []
  | act op next, w => (w.now, op) :: (next (w.perform op).1).timeline (w.perform op).2
  | sleep ms next, w => next.timeline { w with now := w.now + ms }
  | stall, _ => []

/-- What an activity does in a world, in order. -/
def actions (p : Activity α) (w : World) : List Op := (p.timeline w).map (·.2)

theorem actions_act {op : Op} {next : op.Answer → Activity α} {w : World} :
    (act op next).actions w = op :: (next (w.perform op).1).actions (w.perform op).2 :=
  rfl

/-- An activity can end with a result after some actions; without one it is left when it sleeps
or stalls. -/
inductive Does : Activity α → Option α → Multiset Op → Prop where
  | done (a : α) : Does (.done a) (some a) 0
  | act {op : Op} {next : op.Answer → Activity α} {r ops} (answer : op.Answer)
      (h : Does (next answer) r ops) : Does (.act op next) r (op ::ₘ ops)
  | sleep {ms next r ops} (h : Does next r ops) : Does (.sleep ms next) r ops
  | left (ms : Nat) (next : Activity α) : Does (.sleep ms next) none 0
  | stalled : Does .stall none 0

variable {p : Activity α} {a : α} {ops : Multiset Op} {w w' : World}

theorem does_of_run (h : p.run w = some (a, w')) :
    p.Does (some a) ↑(p.actions w) := by
  induction p generalizing w with
  | done a =>
    cases h
    exact .done a
  | act op next ih => exact .act _ (ih _ h)
  | sleep ms next ih => exact .sleep (ih h)
  | stall => cases h

theorem does_bind {f : α → Activity β} {r : Option β} (h : (p.bind f).Does r ops) :
    (∃ a ops₁ ops₂, p.Does (some a) ops₁ ∧ (f a).Does r ops₂ ∧ ops = ops₁ + ops₂) ∨
      r = none ∧ p.Does none ops := by
  induction p generalizing ops with
  | done a => exact .inl ⟨a, 0, ops, .done a, h, (zero_add ops).symm⟩
  | act op next ih =>
    cases h with
    | act answer h =>
      rcases ih answer h with ⟨a, ops₁, ops₂, ha, hf, rfl⟩ | ⟨hr, h⟩
      · exact .inl ⟨a, op ::ₘ ops₁, ops₂, .act answer ha, hf,
          (Multiset.cons_add op ops₁ ops₂).symm⟩
      · exact .inr ⟨hr, .act answer h⟩
  | sleep ms next ih =>
    cases h with
    | sleep h =>
      rcases ih h with ⟨a, ops₁, ops₂, ha, hf, rfl⟩ | ⟨hr, h⟩
      · exact .inl ⟨a, ops₁, ops₂, .sleep ha, hf, rfl⟩
      · exact .inr ⟨hr, .sleep h⟩
    | left => exact .inr ⟨rfl, .left ms next⟩
  | stall =>
    cases h with
    | stalled => exact .inr ⟨rfl, .stalled⟩

theorem does_bind_some {f : α → Activity β} {b : β} (h : (p.bind f).Does (some b) ops) :
    ∃ a ops₁ ops₂, p.Does (some a) ops₁ ∧ (f a).Does (some b) ops₂ ∧ ops = ops₁ + ops₂ := by
  rcases does_bind h with h | ⟨hb, _⟩
  · exact h
  · cases hb

theorem does_cutAfter {limit : Nat} {a? : Option α}
    (h : (p.cutAfter limit).Does (some a?) ops) :
    p.Does a? ops := by
  induction p generalizing limit ops with
  | done a =>
    cases h
    exact .done a
  | act op next ih =>
    cases h with
    | act answer h => exact .act answer (ih answer h)
  | sleep ms next ih =>
    rw [cutAfter] at h
    split at h
    · cases h with
      | sleep h => exact .sleep (ih h)
    · cases h with
      | sleep h =>
        cases h
        exact .left ms next
  | stall =>
    cases h with
    | sleep h =>
      cases h
      exact .stalled

theorem does_within {limit : Option Nat} {a? : Option α}
    (h : (p.within limit).Does (some a?) ops) :
    p.Does a? ops := by
  cases limit with
  | some ms => exact does_cutAfter h
  | none =>
    obtain ⟨a, ops₁, ops₂, ha, hdone, rfl⟩ := does_bind_some h
    cases hdone
    rwa [add_zero]

theorem forall₂_append_cons {R : α → β → Prop} {before after : List α} {l : List β}
    (h : List.Forall₂ R (before ++ a :: after) l) :
    ∃ before' b after', l = before' ++ b :: after' ∧ List.Forall₂ R before before' ∧ R a b ∧
      List.Forall₂ R after after' := by
  induction before generalizing l with
  | nil =>
    cases h with
    | cons hb h => exact ⟨[], _, _, rfl, .nil, hb, h⟩
  | cons first before ih =>
    cases h with
    | @cons _ b _ l hb h =>
      obtain ⟨before', b', after', rfl, hbefore, hb', hafter⟩ := ih h
      exact ⟨b :: before', b', after', rfl, .cons hb hbefore, hb', hafter⟩

/-- What activities end with that take turns, and what each of them does. -/
theorem Interleaves.does {results os : List α} {ps : List (Activity α)} {q : Activity (List α)}
    (h : Interleaves results ps q) (hq : q.Does (some os) ops) :
    ∃ rs : List (α × Multiset Op), os = results.reverse ++ rs.map (·.1) ∧
      List.Forall₂ (fun p r => p.Does (some r.1) r.2) ps rs ∧ ops = (rs.map (·.2)).sum := by
  induction h generalizing ops with
  | ended results =>
    cases hq
    exact ⟨[], by simp, .nil, rfl⟩
  | first a h ih =>
    obtain ⟨rs, rfl, hall, rfl⟩ := ih hq
    exact ⟨(a, 0) :: rs, by simp, .cons (.done a) hall, by simp⟩
  | sleep ms h ih =>
    obtain ⟨rs, rfl, hall, rfl⟩ := ih hq
    obtain ⟨before, r, after, rfl, hbefore, hr, hafter⟩ := forall₂_append_cons hall
    exact ⟨_, rfl, List.rel_append hbefore (.cons (.sleep hr) hafter), rfl⟩
  | @act results before after op next q h ih =>
    cases hq with
    | act answer hq =>
      obtain ⟨rs, rfl, hall, rfl⟩ := ih answer hq
      obtain ⟨before, r, after, rfl, hbefore, hr, hafter⟩ := forall₂_append_cons hall
      refine ⟨before ++ (r.1, op ::ₘ r.2) :: after, by simp,
        List.rel_append hbefore (.cons (.act answer hr) hafter), ?_⟩
      simp [Multiset.cons_add, Multiset.add_cons]
  | wait ms h ih =>
    cases hq with
    | sleep hq => exact ih hq
  | stall h => cases hq

theorem does_fanOut {limit : Option Nat} {ps : List (Activity α)} {os : List α}
    (hlimit : limit ≠ some 0) (h : (fanOut limit ps).Does (some os) ops) :
    ∃ rs : List (α × Multiset Op), os = rs.map (·.1) ∧
      List.Forall₂ (fun p r => p.Does (some r.1) r.2) ps rs ∧ ops = (rs.map (·.2)).sum :=
  (interleaves_fanOut hlimit).does h

end Activity

open Activity in
theorem does_repeatFrom {child : Execution} {settings : RunSettings}
    {ctx : RunContext} {n i : Nat} {os : List Outcome} {ops : Multiset Op}
    (h : (repeatFrom child settings ctx n i).Does (some os) ops) :
    ∃ rs : List (Outcome × Multiset Op), os = rs.map (·.1) ∧
      (∀ r ∈ rs, ∃ ctx', (child settings ctx').Does (some r.1) r.2) ∧
      ops = (rs.map (·.2)).sum := by
  induction n generalizing i os ops with
  | zero =>
    rw [repeatFrom] at h
    cases h
    exact ⟨[], rfl, List.forall_mem_nil _, rfl⟩
  | succ n ih =>
    rw [repeatFrom] at h
    obtain ⟨o, ops₁, _, ho, htail, rfl⟩ := does_bind_some h
    obtain ⟨rest, ops₂, _, hrest, hdone, rfl⟩ := does_bind_some htail
    cases hdone
    obtain ⟨rs, rfl, hall, rfl⟩ := ih hrest
    refine ⟨(o, ops₁) :: rs, rfl, ?_, by simp⟩
    rw [List.forall_mem_cons]
    exact ⟨⟨_, ho⟩, hall⟩

end DataPipeline
