import DataPipeline.Proofs.Run.Interleaving
import DataPipeline.Proofs.Run.World
import Mathlib.Data.Set.Lattice
import Mathlib.Order.CompletePartialOrder

namespace DataPipeline

namespace Activity

variable {α : Type}

/-- Activities one after another, each when the one before it has ended. -/
def inOrder : List (Activity α) → Activity (List α)
  | [] => done []
  | p :: ps => p.bind fun a => (inOrder ps).bind fun as => done (a :: as)

end Activity

namespace Cells

/-- The first result before the others, and what is at its places beside what is elsewhere. -/
noncomputable def join {T : Tenancy} {α : Type} (P : Set String) :
    Option (α × Cells T) → Option (List α × Cells T) → Option (List α × Cells T)
  | some (a, τ), some (as, τs) => some (a :: as, patch P τ τs)
  | _, _ => none

/-- Activities that act at places of their own, and what they end with if each is alone. -/
inductive Side (T : Tenancy) {α : Type} (σ : Cells T) :
    List (Activity α) → Set String → Option (List α × Cells T) → Prop where
  | nil : Side T σ [] ∅ (some ([], σ))
  | cons {p ps P Q r rs} (h : Alone T P p σ r) (hPQ : Disjoint P Q) (hs : Side T σ ps Q rs) :
      Side T σ (p :: ps) (P ∪ Q) (join P r rs)

variable {T : Tenancy} {P Q : Set String} {α : Type} {p q : Activity α} {σ σ' τ : Cells T}
  {ps before after : List (Activity α)} {r : Option (α × Cells T)}
  {rs : Option (List α × Cells T)} {as : List α}

@[simp] theorem join_none_left : join P (none : Option (α × Cells T)) rs = none := by
  cases rs <;> rfl

@[simp] theorem join_none_right : join P r none = none := by
  cases r <;> rfl

theorem join_map (f g h : Cells T → Cells T)
    (heq : ∀ a τ as τs, r = some (a, τ) → rs = some (as, τs) →
      patch P (f τ) (g τs) = h (patch P τ τs)) :
    join P (r.map fun x => (x.1, f x.2)) (rs.map fun y => (y.1, g y.2)) =
      (join P r rs).map fun z => (z.1, h z.2) := by
  rcases r with _ | ⟨a, τ⟩
  · simp
  rcases rs with _ | ⟨as, τs⟩
  · simp
  simp only [join, Option.map_some, heq a τ as τs rfl rfl]

theorem Side.eqOn_compl (h : Side T σ ps P (some (as, τ))) : Set.EqOn τ σ Pᶜ := by
  induction ps generalizing P as τ with
  | nil =>
    cases h
    exact Set.eqOn_refl _ _
  | cons p ps ih =>
    generalize hr : some (as, τ) = r at h
    cases h with
    | @cons _ _ P Q r rs h hPQ hs =>
      cases r with
      | none => simp at hr
      | some x =>
        cases rs with
        | none => simp at hr
        | some y =>
          cases hr
          intro place hplace
          have hP : place ∉ P := fun h => hplace (.inl h)
          have hQ : place ∉ Q := fun h => hplace (.inr h)
          rw [patch_of_notMem hP]
          exact ih hs hQ

theorem Side.frame (h : Side T σ ps P rs) (hσ : Set.EqOn σ σ' P) :
    Side T σ' ps P (rs.map fun x => (x.1, patch P x.2 σ')) := by
  induction h with
  | nil =>
    have hempty : patch ∅ σ σ' = σ' := funext fun place => patch_of_notMem (by simp)
    simp only [Option.map_some, hempty]
    exact .nil
  | @cons p ps P Q r rs h hPQ hs ih =>
    have hpatch (a : α) (τ : Cells T) (as : List α) (τs : Cells T) (_ : r = some (a, τ))
        (_ : rs = some (as, τs)) :
        patch P (patch P τ σ') (patch Q τs σ') = patch (P ∪ Q) (patch P τ τs) σ' := by
      funext place
      by_cases hP : place ∈ P <;> by_cases hQ : place ∈ Q <;> simp [hP, hQ]
    rw [← join_map (patch P · σ') (patch Q · σ') (patch (P ∪ Q) · σ') hpatch]
    exact .cons (h.frame (hσ.mono Set.subset_union_left)) hPQ
      (ih (hσ.mono Set.subset_union_right))

theorem Side.replace {p' : Activity α} (h : Side T σ (before ++ p :: after) P rs)
    (hp : ∀ P r, Alone T P p σ r → Alone T P p' σ r) :
    Side T σ (before ++ p' :: after) P rs := by
  induction before generalizing P rs with
  | nil =>
    cases h with
    | cons h hPQ hs => exact .cons (hp _ _ h) hPQ hs
  | cons q before ih =>
    cases h with
    | cons h hPQ hs => exact .cons h hPQ (ih hs)

theorem Side.stalls (h : Side T σ ps P rs) (hstall : .stall ∈ ps) : rs = none := by
  induction h with
  | nil => cases hstall
  | cons h hPQ hs ih =>
    rcases List.mem_cons.1 hstall with rfl | hstall
    · cases h
      simp
    · rw [ih hstall, join_none_right]

theorem join_map_left (σ : Cells T) :
    join P (r.map fun x => (x.1, patch P x.2 σ)) rs = join P r rs := by
  have hpatch (a : α) (τ : Cells T) (as : List α) (τs : Cells T) (_ : r = some (a, τ))
      (_ : rs = some (as, τs)) : patch P (patch P τ σ) τs = patch P τ τs := by
    funext place
    by_cases hP : place ∈ P <;> simp [hP]
  simpa using join_map (patch P · σ) (fun τs => τs) (fun τ => τ) hpatch

theorem eqOn_update {place : String} {c : Cell T} (h : place ∉ P) :
    Set.EqOn σ (Function.update σ place c) P := by
  intro q hq
  have hne : q ≠ place := fun he => h (he ▸ hq)
  rw [Function.update_of_ne hne]

/-- The first activity goes on; what the others end with stays. -/
theorem Side.act_first {op : Op} {next : op.Answer → Activity α}
    (h : Side T σ (.act op next :: ps) P rs) :
    ∃ place ∈ P, ∃ a c, Step T place (σ place) op a c ∧
      Side T (Function.update σ place c) (next a :: ps) P rs := by
  cases h with
  | @cons _ _ P Q r rs h hPQ hs =>
    cases h with
    | @act _ _ _ _ place a c hplace hstep h =>
      have hQ : place ∉ Q := Set.disjoint_left.1 hPQ hplace
      have hframe := hs.frame (eqOn_update (c := c) hQ)
      have hjoin : join P r (rs.map fun x => (x.1, patch Q x.2 (Function.update σ place c))) =
          join P r rs := by
        have hpatch (b : α) (τ : Cells T) (bs : List α) (τs : Cells T) (_ : r = some (b, τ))
            (hrs : rs = some (bs, τs)) :
            patch P τ (patch Q τs (Function.update σ place c)) = patch P τ τs := by
          funext q
          subst hrs
          -- elsewhere the others end with what they began with, here as after the action
          by_cases hqP : q ∈ P
          · simp [hqP]
          by_cases hqQ : q ∈ Q
          · simp [hqP, hqQ]
          have hne : q ≠ place := fun he => hqP (he ▸ hplace)
          simp [hqP, hqQ, hne, hs.eqOn_compl hqQ]
        simpa using join_map (fun τ => τ) (patch Q · (Function.update σ place c))
          (fun τ => τ) hpatch
      rw [← hjoin]
      exact ⟨place, .inl hplace, a, c, hstep, .cons h hPQ hframe⟩

theorem Side.act {op : Op} {next : op.Answer → Activity α}
    (h : Side T σ (before ++ .act op next :: after) P rs) :
    ∃ place ∈ P, ∃ a c, Step T place (σ place) op a c ∧
      Side T (Function.update σ place c) (before ++ next a :: after) P rs := by
  induction before generalizing P rs with
  | nil => exact h.act_first
  | cons q before ih =>
    cases h with
    | @cons _ _ P Q r rs h hPQ hs =>
      obtain ⟨place, hplace, a, c, hstep, hs⟩ := ih hs
      have hP : place ∉ P := Set.disjoint_right.1 hPQ hplace
      have hframe := h.frame (eqOn_update (c := c) hP)
      rw [← join_map_left (Function.update σ place c)]
      exact ⟨place, .inr hplace, a, c, hstep, .cons hframe hPQ hs⟩

/-- Activities that are interleaved end as they do alone. -/
theorem Side.interleaved {results : List α} {q : Activity (List α)}
    (h : Activity.Interleaves results ps q) (hs : Side T σ ps P rs) :
    Alone T P q σ (rs.map fun x => (results.reverse ++ x.1, x.2)) := by
  -- each move of the interleaving is one of an activity in `ps`, and keeps what they all end
  -- with
  induction h generalizing σ P rs with
  | ended results =>
    cases hs
    rw [Option.map_some, List.append_nil]
    exact .done _ σ
  | @first results ps q a h ih =>
    cases hs with
    | @cons _ _ P Q r rs hdone hPQ hs =>
      cases hdone
      have hjoin : (join P (some (a, σ)) rs).map (fun x => (results.reverse ++ x.1, x.2)) =
          rs.map fun x => ((a :: results).reverse ++ x.1, x.2) := by
        rcases rs with _ | ⟨as, τs⟩
        · simp
        have hsame : patch P σ τs = τs := patch_eq_right (hs.eqOn_compl.mono
          (Set.subset_compl_iff_disjoint_right.2 hPQ))
        simp [join, hsame]
      rw [hjoin]
      exact (ih hs).mono Set.subset_union_right
  | sleep ms h ih =>
    refine ih (hs.replace fun P r hsleep => ?_)
    cases hsleep with
    | sleep h => exact h
  | act h ih =>
    obtain ⟨place, hplace, a, c, hstep, hs⟩ := hs.act
    exact .act hplace hstep (ih a hs)
  | wait ms h ih => exact .sleep (ih hs)
  | stall hstall =>
    rw [hs.stalls hstall]
    exact .stall σ

/-- Activities at places of their own end one after another as they do alone. -/
theorem Side.inOrder (h : Side T σ ps P rs) : Alone T P (Activity.inOrder ps) σ rs := by
  induction ps generalizing σ P rs with
  | nil =>
    cases h
    exact .done [] σ
  | cons p ps ih =>
    cases h with
    | @cons _ _ P Q r rs h hPQ hs =>
      rcases r with _ | ⟨a, τ⟩
      · rw [join_none_left]
        exact (h.mono Set.subset_union_left).bind_none
      have hτ : Set.EqOn σ τ Q := fun q hq =>
        (h.eqOn_compl (Set.disjoint_right.1 hPQ hq)).symm
      refine (h.mono Set.subset_union_left).bind_some ?_
      have hrest := (ih (hs.frame hτ)).mono (Set.subset_union_right (s := P))
      rcases rs with _ | ⟨as, τs⟩
      · rw [join_none_right]
        exact hrest.bind_none
      have hjoin : join P (some (a, τ)) (some (as, τs)) = some (a :: as, patch Q τs τ) := by
        simp only [join, Option.some.injEq, Prod.mk.injEq, true_and]
        funext place
        by_cases hQ : place ∈ Q
        · simp [hQ, Set.disjoint_right.1 hPQ hQ]
        by_cases hP : place ∈ P
        · simp [hP, hQ]
        · simp [hP, hQ, hs.eqOn_compl hQ, h.eqOn_compl hP]
      rw [hjoin]
      exact hrest.bind_some (.done _ _)

/-- Two activities have the same end at some places, whatever is there. -/
def Alike (T : Tenancy) (P : Set String) (p p' : Activity α) : Prop :=
  ∀ σ : Cells T, ∃ r, Alone T P p σ r ∧ Alone T P p' σ r

theorem Alike.mono {p' : Activity α} (h : Alike T P p p') (hPQ : P ⊆ Q) : Alike T Q p p' := by
  intro σ
  obtain ⟨r, hp, hp'⟩ := h σ
  exact ⟨r, hp.mono hPQ, hp'.mono hPQ⟩

theorem alike_done (a : α) : Alike T P (.done a) (.done a) :=
  fun σ => ⟨_, .done a σ, .done a σ⟩

theorem Alike.bind {β : Type} {p' : Activity α} {f f' : α → Activity β} (h : Alike T P p p')
    (hf : ∀ a, Alike T P (f a) (f' a)) : Alike T P (p.bind f) (p'.bind f') := by
  intro σ
  obtain ⟨_ | ⟨a, τ⟩, hp, hp'⟩ := h σ
  · exact ⟨none, hp.bind_none, hp'.bind_none⟩
  · obtain ⟨r, hr, hr'⟩ := hf a τ
    exact ⟨r, hp.bind_some hr, hp'.bind_some hr'⟩

theorem Alike.sameEnd {p' : Activity α} {w : World} (h : Alike T P p p') (hw : Shows σ w) :
    SameEnd (p.run w) (p'.run w) := by
  obtain ⟨r, hp, hp'⟩ := h σ
  rcases hp.run hw with ⟨rfl, hrun⟩ | ⟨a, τ, w₁, rfl, hrun, hw₁⟩
  · rcases hp'.run hw with ⟨_, hrun'⟩ | ⟨_, _, _, hr, _, _⟩
    · rw [hrun, hrun']
      exact .endless
    · cases hr
  · rcases hp'.run hw with ⟨hr, _⟩ | ⟨_, _, w₂, hr, hrun', hw₂⟩
    · cases hr
    · cases hr
      rw [hrun, hrun']
      refine .ended (funext fun place => ?_) (funext fun place => ?_)
      · rw [hw₁.offered, hw₂.offered]
      · rw [hw₁.counters, hw₂.counters]

/-- Pairs of activities, alike at places where no other pair is. -/
inductive Apart (T : Tenancy) :
    List (Activity α) → List (Activity α) → Set String → Prop where
  | nil : Apart T [] [] ∅
  | cons {p p' ps ps' P Q} (h : Alike T P p p') (hPQ : Disjoint P Q) (hs : Apart T ps ps' Q) :
      Apart T (p :: ps) (p' :: ps') (P ∪ Q)

theorem Apart.side {ps' : List (Activity α)} (h : Apart T ps ps' P) (σ : Cells T) :
    ∃ rs, Side T σ ps P rs ∧ Side T σ ps' P rs := by
  induction h with
  | nil => exact ⟨_, .nil, .nil⟩
  | cons h hPQ hs ih =>
    obtain ⟨r, hp, hp'⟩ := h σ
    obtain ⟨rs, hps, hps'⟩ := ih
    exact ⟨_, .cons hp hPQ hps, .cons hp' hPQ hps'⟩

theorem Apart.fanOut {ps' : List (Activity α)} {limit : Option Nat} (hlimit : limit ≠ some 0)
    (h : Apart T ps ps' P) : Alike T P (Activity.fanOut limit ps) (Activity.inOrder ps') := by
  intro σ
  obtain ⟨rs, hs, hs'⟩ := h.side σ
  have hfan := Side.interleaved (Activity.interleaves_fanOut hlimit) hs
  have hid : rs.map (fun x => ([].reverse ++ x.1, x.2)) = rs := by simp
  rw [hid] at hfan
  exact ⟨rs, hfan, hs'.inOrder⟩

end Cells

end DataPipeline
