import DataPipeline.Proofs.Run.Elapsed
import DataPipeline.Proofs.Run.Timeline

namespace DataPipeline

/-- An action, when it was done, and how it was answered. -/
structure Event where
  time : Nat
  op : Op
  answer : op.Answer

namespace Activity

variable {α β : Type} {p : Activity α} {w : World}

/-- What an activity does in a world. -/
def history : Activity α → World → List Event
  | done _, _ => []
  | act op next, w =>
    ⟨w.now, op, (w.perform op).1⟩ :: (next (w.perform op).1).history (w.perform op).2
  | sleep ms next, w => next.history { w with now := w.now + ms }
  | stall, _ => []

theorem actions_eq (p : Activity α) (w : World) : p.actions w = (p.history w).map (·.op) := by
  induction p generalizing w with
  | done | stall => rfl
  | act op next ih =>
    rw [actions_act, history, List.map_cons]
    exact congrArg _ (ih _ _)
  | sleep ms next ih => exact ih _

theorem bind_done (p : Activity α) : (p.bind fun a => .done a) = p := by
  induction p with
  | done a => rfl
  | act op next ih => exact congrArg _ (funext ih)
  | sleep ms next ih => exact congrArg _ ih
  | stall => rfl

theorem run_bind (p : Activity α) (f : α → Activity β) (w : World) :
    (p.bind f).run w = (p.run w).bind fun r => (f r.1).run r.2 := by
  induction p generalizing w with
  | done a => rfl
  | act op next ih => exact ih _ _
  | sleep ms next ih => exact ih _
  | stall => rfl

theorem history_bind (p : Activity α) (f : α → Activity β) (w : World) :
    (p.bind f).history w = p.history w ++ (p.run w).elim [] fun r => (f r.1).history r.2 := by
  induction p generalizing w with
  | done a => rfl
  | act op next ih => exact congrArg _ (ih _ _)
  | sleep ms next ih => exact ih _
  | stall => rfl

theorem le_time_of_mem_history {e : Event} (h : e ∈ p.history w) : w.now ≤ e.time := by
  induction p generalizing w with
  | done | stall => cases h
  | act op next ih =>
    rcases List.mem_cons.1 h with rfl | h
    · exact Nat.le_refl _
    · have hle := ih _ h
      rwa [World.now_perform] at hle
  | sleep ms next ih => exact Nat.le_of_add_right_le (ih h)

theorem time_le_of_mem_history_cutAfter {limit : Nat} {e : Event}
    (h : e ∈ (p.cutAfter limit).history w) : e.time ≤ w.now + limit := by
  induction p generalizing limit w with
  | done | stall => cases h
  | act op next ih =>
    rcases List.mem_cons.1 h with rfl | h
    · exact Nat.le_add_right _ _
    · have hle := ih _ h
      rwa [World.now_perform] at hle
  | sleep ms next ih =>
    rw [cutAfter] at h
    split at h
    next hms =>
      have hle := @ih { w with now := w.now + ms } _ h
      dsimp only at hle
      omega
    · cases h

/-- Under a limit an activity does all that it does before that time without one. -/
theorem history_cutAfter (p : Activity α) (limit : Nat) (w : World) :
    ((p.cutAfter limit).history w).filter (·.time < w.now + limit) =
      (p.history w).filter (·.time < w.now + limit) := by
  induction p generalizing limit w with
  | done | stall => rfl
  | act op next ih =>
    have hrest := ih (w.perform op).1 limit (w.perform op).2
    rw [World.now_perform] at hrest
    rw [cutAfter, history, history, List.filter_cons, List.filter_cons, hrest]
  | sleep ms next ih =>
    rw [cutAfter]
    split
    next hms =>
      have hsum : w.now + ms + (limit - ms) = w.now + limit := by omega
      have hrest := ih (limit - ms) { w with now := w.now + ms }
      dsimp only at hrest
      rw [hsum] at hrest
      exact hrest
    next hms =>
      symm
      apply List.filter_eq_nil_iff.2
      intro e he
      have hmem : e ∈ next.history { w with now := w.now + ms } := he
      have hle := le_time_of_mem_history hmem
      dsimp only at hle
      simp only [decide_eq_true_eq]
      omega

theorem history_cutAfter_isPrefix (p : Activity α) (limit : Nat) (w : World) :
    (p.cutAfter limit).history w <+: p.history w := by
  induction p generalizing limit w with
  | done | stall => exact List.nil_prefix
  | act op next ih =>
    rw [cutAfter, history, history, List.prefix_cons_inj]
    exact ih _ _ _
  | sleep ms next ih =>
    rw [cutAfter]
    split
    · exact ih _ _
    · exact List.nil_prefix

/-- An activity that does not end in time is cut off at its limit. -/
theorem run_cutAfter {limit : Nat}
    (h : ∀ a w', p.run w = some (a, w') → w.now + limit < w'.now) :
    ∃ w', (p.cutAfter limit).run w = some (none, w') ∧ w'.now = w.now + limit := by
  induction p generalizing limit w with
  | done a =>
    have hlt := h a w rfl
    omega
  | act op next ih =>
    have hnow := World.now_perform w op
    obtain ⟨w', hrun, hfinish⟩ := @ih _ (w.perform op).2 limit fun a w' hrun => by
      rw [hnow]
      exact h a w' hrun
    exact ⟨w', hrun, hfinish.trans (congrArg (· + limit) hnow)⟩
  | sleep ms next ih =>
    rw [cutAfter]
    split
    next hms =>
      have hsum : w.now + ms + (limit - ms) = w.now + limit := by omega
      obtain ⟨w', hrun, hfinish⟩ :=
          @ih { w with now := w.now + ms } (limit - ms) fun a w' hrun => by
        rw [hsum]
        exact h a w' hrun
      exact ⟨w', hrun, hfinish.trans hsum⟩
    · exact ⟨_, rfl, rfl⟩
  | stall => exact ⟨_, rfl, rfl⟩

end Activity

end DataPipeline
