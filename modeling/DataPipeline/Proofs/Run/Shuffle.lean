import DataPipeline.Proofs.Run.Timeline
import Mathlib.Algebra.BigOperators.Group.List.Basic
import Mathlib.Algebra.Ring.Nat

namespace DataPipeline

/-- A list takes the entries of others in turns, those of each in their order. -/
inductive Shuffle {ε : Type} : List (List ε) → List ε → Prop where
  | nil {parts} (h : ∀ l ∈ parts, l = []) : Shuffle parts []
  | cons {before after x l es} (h : Shuffle (before ++ l :: after) es) :
      Shuffle (before ++ (x :: l) :: after) (x :: es)

namespace Shuffle

variable {ε : Type} {parts parts' : List (List ε)} {es es' : List ε}

theorem single (es : List ε) : Shuffle [es] es := by
  induction es with
  | nil => exact .nil (by simp)
  | cons x es ih =>
    have hcons : Shuffle ([] ++ (x :: es) :: []) (x :: es) := .cons ih
    exact hcons

theorem cons_nil (h : Shuffle parts es) : Shuffle ([] :: parts) es := by
  induction h with
  | nil h => exact .nil (List.forall_mem_cons.2 ⟨rfl, h⟩)
  | @cons before after x l es h ih =>
    have hcons : Shuffle (([] :: before) ++ (x :: l) :: after) (x :: es) := .cons ih
    exact hcons

theorem nil_append (h : ∀ l ∈ parts, l = []) (h' : Shuffle parts' es') :
    Shuffle (parts ++ parts') es' := by
  induction parts with
  | nil => exact h'
  | cons l parts ih =>
    rw [List.forall_mem_cons] at h
    rw [h.1]
    exact (ih h.2).cons_nil

theorem of_cons_nil (h : Shuffle ([] :: parts) es) : Shuffle parts es := by
  generalize hall : [] :: parts = all at h
  induction h generalizing parts with
  | nil h =>
    subst hall
    exact .nil (List.forall_mem_cons.1 h).2
  | @cons before after x l es h ih =>
    cases before with
    | nil => cases hall
    | cons first before =>
      rw [List.cons_append, List.cons.injEq] at hall
      obtain ⟨rfl, rfl⟩ := hall
      exact .cons (ih rfl)

theorem of_nil_append (h : ∀ l ∈ parts, l = []) (h' : Shuffle (parts ++ parts') es) :
    Shuffle parts' es := by
  induction parts with
  | nil => exact h'
  | cons l parts ih =>
    rw [List.forall_mem_cons] at h
    rw [h.1, List.cons_append] at h'
    exact ih h.2 h'.of_cons_nil

theorem append (h : Shuffle parts es) (h' : Shuffle parts' es') :
    Shuffle (parts ++ parts') (es ++ es') := by
  induction h with
  | nil h => exact nil_append h h'
  | @cons before after x l es h ih =>
    rw [List.append_assoc, List.cons_append] at ih ⊢
    exact .cons ih

theorem of_flatten (parts : List (List ε)) : Shuffle parts parts.flatten := by
  induction parts with
  | nil => exact .nil nofun
  | cons part parts ih => exact (single part).append ih

theorem nil_of_shuffle {l : List ε} (h : Shuffle parts []) (hl : l ∈ parts) : l = [] := by
  generalize hes : ([] : List ε) = es at h
  cases h with
  | nil h => exact h l hl
  | cons h => cases hes

theorem mem {l : List ε} {x : ε} (h : Shuffle parts es) (hl : l ∈ parts)
    (hx : x ∈ l) : x ∈ es := by
  induction h generalizing l with
  | nil h =>
    rw [h l hl] at hx
    cases hx
  | @cons before after y l' es h ih =>
    simp only [List.mem_append, List.mem_cons] at hl ih
    rcases hl with hl | rfl | hl
    · exact List.mem_cons_of_mem _ (ih (.inl hl) hx)
    · rcases List.mem_cons.1 hx with rfl | hx
      · exact List.mem_cons_self
      · exact List.mem_cons_of_mem _ (ih (.inr (.inl rfl)) hx)
    · exact List.mem_cons_of_mem _ (ih (.inr (.inr hl)) hx)

theorem of_perm (h : Shuffle parts es) (hperm : parts.Perm parts') : Shuffle parts' es := by
  induction h generalizing parts' with
  | nil h => exact .nil fun l hl => h l (hperm.mem_iff.2 hl)
  | @cons before after x l es h ih =>
    obtain ⟨before', after', rfl⟩ := List.append_of_mem (hperm.mem_iff.1 (by simp : x :: l ∈ _))
    have hrest : (before ++ after).Perm (before' ++ after') :=
      (List.perm_middle.symm.trans (hperm.trans List.perm_middle)).cons_inv
    exact .cons (ih (List.perm_middle.trans ((hrest.cons l).trans List.perm_middle.symm)))

/-- A shuffle of shuffles is a shuffle of all their parts. -/
theorem flatten {groups : List (List (List ε))}
    (hgroups : List.Forall₂ (fun part group => Shuffle group part) parts groups)
    (h : Shuffle parts es) : Shuffle groups.flatten es := by
  induction h generalizing groups with
  | nil h =>
    induction hgroups with
    | nil => exact .nil nofun
    | cons hgroup hgroups ih =>
      rw [List.forall_mem_cons] at h
      rw [h.1] at hgroup
      rw [List.flatten_cons]
      exact nil_append (fun l => nil_of_shuffle hgroup) (ih h.2)
  | @cons before after x l es h ih =>
    obtain ⟨before', group, after', rfl, hbefore, hgroup, hafter⟩ :=
      Activity.forall₂_append_cons hgroups
    cases hgroup with
    | @cons b a _ l' _ hgroup =>
      have hrest := ih (List.rel_append hbefore (.cons hgroup hafter))
      simp only [List.flatten_append, List.flatten_cons, List.append_assoc,
        List.cons_append] at hrest ⊢
      rw [← List.append_assoc] at hrest ⊢
      exact .cons hrest

/-- Where each of some lists goes on in a second shuffle, the two shuffles one after another are
a shuffle of them. -/
theorem zipWith_append (h : Shuffle parts es) (h' : Shuffle parts' es')
    (hlength : parts.length = parts'.length) :
    Shuffle (List.zipWith (· ++ ·) parts parts') (es ++ es') := by
  induction h generalizing parts' with
  | @nil parts h =>
    have hsecond : List.zipWith (· ++ ·) parts parts' = parts' := by
      clear h'
      induction parts generalizing parts' with
      | nil => exact (List.eq_nil_of_length_eq_zero hlength.symm).symm
      | cons l parts ih =>
        cases parts' with
        | nil => cases hlength
        | cons l' parts' =>
          rw [List.forall_mem_cons] at h
          rw [List.zipWith_cons_cons, h.1, ih h.2 (Nat.succ.inj hlength)]
          rfl
    rw [hsecond]
    exact h'
  | @cons before after x l es h ih =>
    have hrest := ih h' (by simpa using hlength)
    obtain ⟨before', after', rfl, hbefore⟩ : ∃ before' after', parts' = before' ++ after' ∧
        before.length = before'.length := by
      refine ⟨parts'.take before.length, parts'.drop before.length,
        (List.take_append_drop _ _).symm, ?_⟩
      rw [List.length_take, ← hlength, List.length_append]
      omega
    cases after' with
    | nil =>
      simp only [List.length_append, List.length_cons, List.length_nil] at hlength
      omega
    | cons l' after' =>
      rw [List.zipWith_append hbefore, List.zipWith_cons_cons] at hrest ⊢
      exact .cons hrest

theorem map_append {ι : Type} {ps : List ι} {f g : ι → List ε} (h : Shuffle (ps.map f) es)
    (h' : Shuffle (ps.map g) es') : Shuffle (ps.map fun p => f p ++ g p) (es ++ es') := by
  have hboth := h.zipWith_append h' (by simp)
  rwa [List.zipWith_map, List.zipWith_self] at hboth

theorem sum_map (h : Shuffle parts es) (weight : ε → Nat) :
    (es.map weight).sum = (parts.map fun part => (part.map weight).sum).sum := by
  induction h with
  | nil h =>
    symm
    apply List.sum_eq_zero
    rw [List.forall_mem_map]
    intro l hl
    rw [h l hl]
    rfl
  | @cons before after x l es h ih =>
    rw [List.map_cons, List.sum_cons, ih]
    simp only [List.map_append, List.map_cons, List.sum_append, List.sum_cons]
    omega

/-- What is told by some entries of each list is told by the shuffle in turns. -/
theorem filterMap {δ γ : Type} {f : ε → Option γ} {g : δ → γ} {told : List (List δ)}
    (h : Shuffle parts es)
    (htold : List.Forall₂ (fun part ds => part.filterMap f = ds.map g) parts told) :
    ∃ ds, Shuffle told ds ∧ es.filterMap f = ds.map g := by
  induction h generalizing told with
  | nil h =>
    refine ⟨[], .nil fun ds hds => ?_, rfl⟩
    obtain ⟨before, after, rfl⟩ := List.append_of_mem hds
    obtain ⟨before', part, after', rfl, _, hpart, _⟩ := Activity.forall₂_append_cons htold.flip
    rw [h part (by simp)] at hpart
    exact List.map_eq_nil_iff.1 hpart.symm
  | @cons before after x l es h ih =>
    obtain ⟨before', ds, after', rfl, hbefore, hds, hafter⟩ :=
      Activity.forall₂_append_cons htold
    cases hx : f x with
    | none =>
      rw [List.filterMap_cons_none hx] at hds ⊢
      exact ih (List.rel_append hbefore (.cons hds hafter))
    | some y =>
      rw [List.filterMap_cons_some hx] at hds ⊢
      cases ds with
      | nil => cases hds
      | cons d ds =>
        rw [List.map_cons, List.cons.injEq] at hds
        obtain ⟨all, hshuffle, hall⟩ := ih (List.rel_append hbefore (.cons hds.2 hafter))
        exact ⟨d :: all, .cons hshuffle, by rw [hall, hds.1, List.map_cons]⟩

end Shuffle

end DataPipeline
