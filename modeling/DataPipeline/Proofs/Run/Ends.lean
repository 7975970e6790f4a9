import DataPipeline.Plugin.Wrappers
import DataPipeline.Proofs.Run.Interleaving
import DataPipeline.Run.World
import Mathlib.Data.List.Forall2

namespace DataPipeline

namespace Activity

variable {α β : Type}

/-- A result that an activity can end with. -/
inductive Ends : Activity α → α → Prop where
  | done (a : α) : Ends (.done a) a
  | act {op : Op} {next : op.Answer → Activity α} {a : α} (answer : op.Answer)
      (h : Ends (next answer) a) : Ends (.act op next) a
  | sleep {ms : Nat} {next : Activity α} {a : α} (h : Ends next a) : Ends (.sleep ms next) a

variable {p : Activity α} {a : α} {b : β}

theorem ends_of_run {w w' : World} (h : p.run w = some (a, w')) : p.Ends a := by
  induction p generalizing w with
  | done a =>
    cases h
    exact .done a
  | act op next ih => exact .act _ (ih _ h)
  | sleep ms next ih => exact .sleep (ih h)
  | stall => cases h

@[simp] theorem ends_done {a' : α} : (done a').Ends a ↔ a = a' := by
  constructor
  · intro h
    cases h
    rfl
  · rintro rfl
    exact .done a

@[simp] theorem not_ends_stall : ¬(stall : Activity α).Ends a := nofun

theorem ends_bind {f : α → Activity β} : (p.bind f).Ends b ↔ ∃ a, p.Ends a ∧ (f a).Ends b := by
  induction p with
  | done a => simp [bind]
  | act op next ih =>
    constructor
    · intro h
      cases h with
      | act answer h =>
        obtain ⟨a, ha, hb⟩ := (ih answer).1 h
        exact ⟨a, .act answer ha, hb⟩
    · rintro ⟨a, ha, hb⟩
      cases ha with
      | act answer ha => exact .act answer ((ih answer).2 ⟨a, ha, hb⟩)
  | sleep ms next ih =>
    constructor
    · intro h
      cases h with
      | sleep h =>
        obtain ⟨a, ha, hb⟩ := ih.1 h
        exact ⟨a, .sleep ha, hb⟩
    · rintro ⟨a, ha, hb⟩
      cases ha with
      | sleep ha => exact .sleep (ih.2 ⟨a, ha, hb⟩)
  | stall => simp [bind]

@[simp] theorem ends_monad_bind {f : α → Activity β} :
    (p >>= f).Ends b ↔ ∃ a, p.Ends a ∧ (f a).Ends b :=
  ends_bind

theorem forall₂_ends_replace {before after : List (Activity α)} {p' : Activity α} {os : List α}
    (hp : ∀ o, p.Ends o → p'.Ends o) (h : List.Forall₂ Ends (before ++ p :: after) os) :
    List.Forall₂ Ends (before ++ p' :: after) os := by
  induction before generalizing os with
  | nil =>
    cases h with
    | cons ho h => exact .cons (hp _ ho) h
  | cons q before ih =>
    cases h with
    | cons ho h => exact .cons ho (ih h)

/-- Activities that take turns end with a result each. -/
theorem Interleaves.ends {results os : List α} {ps : List (Activity α)} {q : Activity (List α)}
    (h : Interleaves results ps q) (hq : q.Ends os) :
    ∃ os', os = results.reverse ++ os' ∧ List.Forall₂ Ends ps os' := by
  induction h with
  | ended results =>
    cases hq
    exact ⟨[], by simp, .nil⟩
  | first a h ih =>
    obtain ⟨os', rfl, hall⟩ := ih hq
    exact ⟨a :: os', by simp, .cons (.done a) hall⟩
  | sleep ms h ih =>
    obtain ⟨os', rfl, hall⟩ := ih hq
    exact ⟨os', rfl, forall₂_ends_replace (fun _ ho => .sleep ho) hall⟩
  | act h ih =>
    cases hq with
    | act answer hq =>
      obtain ⟨os', rfl, hall⟩ := ih answer hq
      exact ⟨os', rfl, forall₂_ends_replace (fun _ ho => .act answer ho) hall⟩
  | wait ms h ih =>
    cases hq with
    | sleep hq => exact ih hq
  | stall h => cases hq

theorem ends_fanOut {limit : Option Nat} {ps : List (Activity α)} {os : List α}
    (hlimit : limit ≠ some 0) (h : (fanOut limit ps).Ends os) : List.Forall₂ Ends ps os := by
  obtain ⟨os', rfl, hall⟩ := (interleaves_fanOut hlimit).ends h
  exact hall

end Activity

theorem ends_repeatFrom {child : Execution} {settings : RunSettings}
    {ctx : RunContext} {n i : Nat} {os : List Outcome}
    (h : (repeatFrom child settings ctx n i).Ends os) :
    os.length = n ∧ ∀ o ∈ os, ∃ ctx', (child settings ctx').Ends o := by
  induction n generalizing i os with
  | zero =>
    rw [repeatFrom, Activity.ends_done] at h
    simp [h]
  | succ n ih =>
    simp only [repeatFrom, Activity.ends_monad_bind, Activity.ends_done] at h
    obtain ⟨o, ho, rest, hrest, rfl⟩ := h
    obtain ⟨hlen, hall⟩ := ih hrest
    refine ⟨by rw [List.length_cons, hlen], fun o' ho' => ?_⟩
    rcases List.mem_cons.1 ho' with rfl | ho'
    · exact ⟨_, ho⟩
    · exact hall o' ho'

end DataPipeline
