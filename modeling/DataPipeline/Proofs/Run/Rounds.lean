import DataPipeline.Proofs.Run.Passage
import Mathlib.Algebra.BigOperators.Group.List.Basic

namespace DataPipeline

namespace Activity

variable {α β γ δ : Type}

/-- The indices of all rounds of loops inside one another, given how often each is passed, the
outermost first. -/
def rounds : List Nat → List (List Nat)
  | [] => [[]]
  | times :: inner => (List.range times).flatMap fun i => (rounds inner).map (i :: ·)

theorem length_rounds (times : List Nat) : (rounds times).length = times.prod := by
  induction times with
  | nil => rfl
  | cons n times ih =>
    simp only [rounds, List.length_flatMap, List.length_map, ih, List.map_const',
      List.length_range, List.sum_replicate_nat, List.prod_cons]

theorem mem_rounds {times indices : List Nat} :
    indices ∈ rounds times ↔ List.Forall₂ (· < ·) indices times := by
  induction times generalizing indices with
  | nil => simp [rounds]
  | cons n times ih =>
    simp only [rounds, List.mem_flatMap, List.mem_range, List.mem_map, ih]
    constructor
    · rintro ⟨i, hi, inner, hinner, rfl⟩
      exact .cons hi hinner
    · rintro (_ | ⟨hi, hinner⟩)
      exact ⟨_, hi, _, hinner, rfl⟩

theorem pairwise_rounds (times : List Nat) : (rounds times).Pairwise (· < ·) := by
  induction times with
  | nil => exact List.pairwise_singleton _ _
  | cons n times ih =>
    rw [rounds, List.pairwise_flatMap]
    constructor
    · intro i hi
      rw [List.pairwise_map]
      exact ih.imp fun hlt => List.cons_lt_cons_iff.2 (.inr ⟨rfl, hlt⟩)
    · apply List.pairwise_lt_range.imp
      intro i j hij indices hi indices' hj
      obtain ⟨_, _, rfl⟩ := List.mem_map.1 hi
      obtain ⟨_, _, rfl⟩ := List.mem_map.1 hj
      exact List.cons_lt_cons_iff.2 (.inl hij)

/-- A passage of an activity inside loops, with the index of each loop, the outermost first. -/
structure Round (α : Type) where
  indices : List Nat
  passage : Passage α

/-- The round in one more loop around the others. -/
def Round.inside (i : Nat) (r : Round α) : Round α := { r with indices := i :: r.indices }

/-- A passage lies in the course of another: it does not begin before it, and has ended when the
other ends. -/
structure Passage.Inside (x : Passage α) (z : Passage β) : Prop where
  start_le : z.start ≤ x.start
  ended : z.result ≠ none → x.result ≠ none ∧ x.finish ≤ z.finish

/-- Rounds of activities in the course of a passage. They are those with the given indices, or
the first of these if the passage never ends, and none begins before the one before it has
ended. -/
structure Sequential (p : List Nat → Activity α) (todo : List (List Nat)) (z : Passage β)
    (rs : List (Round α)) :
    Prop where
  order : rs.map (·.indices) <+: todo
  of : ∀ r ∈ rs, r.passage.Of (p r.indices)
  inside : ∀ r ∈ rs, r.passage.Inside z
  apart : rs.Pairwise fun r r' => r.passage.result ≠ none ∧ r.passage.finish ≤ r'.passage.start
  complete : z.result ≠ none → rs.map (·.indices) = todo

variable {p : List Nat → Activity α} {todo todo' : List (List Nat)} {x : Passage β}
  {y : Passage γ} {z : Passage δ} {rs rs' : List (Round α)}

theorem Passage.Inside.refl (x : Passage α) : x.Inside x :=
  ⟨Nat.le_refl _, fun h => ⟨h, Nat.le_refl _⟩⟩

theorem Passage.Inside.trans {x : Passage α} {y : Passage β} {z : Passage γ} (h : x.Inside y)
    (h' : y.Inside z) :
    x.Inside z := by
  refine ⟨Nat.le_trans h'.start_le h.start_le, fun hz => ?_⟩
  obtain ⟨hy, hle⟩ := h'.ended hz
  obtain ⟨hx, hle'⟩ := h.ended hy
  exact ⟨hx, Nat.le_trans hle' hle⟩

namespace Sequential

theorem nil (z : Passage δ) : Sequential p [] z [] where
  order := List.nil_prefix
  of := nofun
  inside := nofun
  apart := .nil
  complete _ := rfl

theorem single {x : Passage α} (h : x.Of (p [])) : Sequential p [[]] x [⟨[], x⟩] where
  order := List.prefix_refl _
  of := List.forall_mem_singleton.2 h
  inside := List.forall_mem_singleton.2 (.refl x)
  apart := List.pairwise_singleton _ _
  complete _ := rfl

theorem within (h : Sequential p todo y rs) (hin : y.Inside z) : Sequential p todo z rs where
  order := h.order
  of := h.of
  inside r hr := (h.inside r hr).trans hin
  apart := h.apart
  complete hz := h.complete (hin.ended hz).1

theorem indexed {i : Nat} (h : Sequential (fun indices => p (i :: indices)) todo z rs) :
    Sequential p (todo.map (i :: ·)) z (rs.map (Round.inside i)) := by
  have hindices :
      (rs.map (Round.inside i)).map (·.indices) = (rs.map (·.indices)).map (i :: ·) := by
    simp [Round.inside]
  constructor
  case order =>
    rw [hindices]
    exact h.order.map _
  case of => exact List.forall_mem_map.2 h.of
  case inside => exact List.forall_mem_map.2 h.inside
  case apart => exact List.pairwise_map.2 h.apart
  case complete =>
    intro hz
    rw [hindices, h.complete hz]

theorem stalled (h : Sequential p todo z rs) (hz : z.result = none) (todo' : List (List Nat)) :
    Sequential p (todo ++ todo') z rs where
  order := h.order.trans (List.prefix_append _ _)
  of := h.of
  inside := h.inside
  apart := h.apart
  complete hends := absurd hz hends

theorem idle (hz : z.result = none) (todo : List (List Nat)) : Sequential p todo z [] :=
  (nil z).stalled hz todo

theorem append (h : Sequential p todo x rs) (h' : Sequential p todo' y rs')
    (hended : x.result ≠ none) (hthen : x.finish ≤ y.start) (hx : x.Inside z)
    (hy : y.Inside z) :
    Sequential p (todo ++ todo') z (rs ++ rs') := by
  constructor
  case order =>
    rw [List.map_append, h.complete hended, List.prefix_append_right_inj]
    exact h'.order
  case of => exact List.forall_mem_append.2 ⟨h.of, h'.of⟩
  case inside => exact List.forall_mem_append.2 ⟨(h.within hx).inside, (h'.within hy).inside⟩
  case apart =>
    rw [List.pairwise_append]
    refine ⟨h.apart, h'.apart, fun r hr r' hr' => ?_⟩
    obtain ⟨hresult, hfinish⟩ := (h.inside r hr).ended hended
    exact ⟨hresult, hfinish.trans (hthen.trans (h'.inside r' hr').start_le)⟩
  case complete =>
    intro hz
    rw [List.map_append, h.complete hended, h'.complete (hy.ended hz).1]

end Sequential

end Activity

end DataPipeline
