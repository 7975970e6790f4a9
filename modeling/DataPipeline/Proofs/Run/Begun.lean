import DataPipeline.Proofs.Run.Annotated

namespace DataPipeline

namespace Activity

variable {α β : Type}

/-- An activity that starts at a time has done these actions, whatever it was answered, when it
waits. -/
inductive Begins : Activity α → Nat → List Event → Prop where
  | wait (ms : Nat) (next : Activity α) (t : Nat) : Begins (.sleep ms next) t []
  | stall (t : Nat) : Begins .stall t []
  | act {op : Op} {next : op.Answer → Activity α} {t es} (answer : op.Answer)
      (h : Begins (next answer) t es) :
      Begins (.act op next) t (⟨t, op, answer⟩ :: es)
  | sleep {ms next t es} (h : Begins next (t + ms) es) : Begins (.sleep ms next) t es

variable {p : Activity α} {t t' limit : Nat} {r : Option α} {es : List Event}

theorem Begins.only {P : Op → Prop} (h : p.Begins t es) (hp : p.Only P) : ∀ e ∈ es, P e.op := by
  induction h with
  | wait | stall => nofun
  | act answer h ih => exact List.forall_mem_cons.2 ⟨hp.1, ih (hp.2 answer)⟩
  | sleep h ih => exact ih hp

/-- An activity in two parts is in the first, or has passed it and is in the second. -/
theorem begins_bind {f : α → Activity β} (h : (p.bind f).Begins t es) : p.Begins t es ∨
    ∃ a es₁ t₁ es₂, p.Passes t (some a) es₁ t₁ ∧ (f a).Begins t₁ es₂ ∧ es = es₁ ++ es₂ := by
  induction p generalizing t es with
  | done a => exact .inr ⟨a, [], t, es, .done a t, h, rfl⟩
  | act op next ih =>
    cases h with
    | act answer h =>
      rcases ih answer h with h | ⟨a, es₁, t₁, es₂, ha, hf, rfl⟩
      · exact .inl (.act answer h)
      · exact .inr ⟨a, _, t₁, es₂, .act answer ha, hf, rfl⟩
  | sleep ms next ih =>
    cases h with
    | wait => exact .inl (.wait ms next t)
    | sleep h =>
      rcases ih h with h | ⟨a, es₁, t₁, es₂, ha, hf, rfl⟩
      · exact .inl (.sleep h)
      · exact .inr ⟨a, es₁, t₁, es₂, .sleep ha, hf, rfl⟩
  | stall =>
    cases h
    exact .inl (.stall t)

/-- An activity under a limit passes to its own end, or is cut off somewhere. -/
theorem passes_cutAfter {r : Option (Option α)} (h : (p.cutAfter limit).Passes t r es t') :
    (∃ a, r = some (some a) ∧ p.Passes t (some a) es t') ∨ r = some none ∧ p.Begins t es := by
  induction p generalizing limit t es with
  | done a =>
    cases h
    exact .inl ⟨a, rfl, .done a _⟩
  | act op next ih =>
    cases h with
    | act answer h =>
      rcases ih answer h with ⟨a, rfl, ha⟩ | ⟨rfl, hcut⟩
      · exact .inl ⟨a, rfl, .act answer ha⟩
      · exact .inr ⟨rfl, .act answer hcut⟩
  | sleep ms next ih =>
    rw [cutAfter] at h
    split at h
    · cases h with
      | sleep h =>
        rcases ih h with ⟨a, rfl, ha⟩ | ⟨rfl, hcut⟩
        · exact .inl ⟨a, rfl, .sleep ha⟩
        · exact .inr ⟨rfl, .sleep hcut⟩
    · cases h with
      | sleep h =>
        cases h
        exact .inr ⟨rfl, .wait ms next _⟩
  | stall =>
    cases h with
    | sleep h =>
      cases h
      exact .inr ⟨rfl, .stall _⟩

theorem passes_within {limit : Option Nat} {r : Option (Option α)}
    (h : (p.within limit).Passes t r es t') :
    (∃ a, r = some (some a) ∧ p.Passes t (some a) es t') ∨
      limit ≠ none ∧ r = some none ∧ p.Begins t es ∨
      r = none ∧ p.Passes t none es t' := by
  cases limit with
  | none =>
    obtain ⟨r', hp, rfl⟩ := passes_map h
    cases r' with
    | none => exact .inr (.inr ⟨rfl, hp⟩)
    | some a => exact .inl ⟨a, rfl, hp⟩
  | some ms =>
    rcases passes_cutAfter h with ha | ⟨hr, hcut⟩
    · exact .inl ha
    · exact .inr (.inl ⟨nofun, hr, hcut⟩)

theorem passes_within_of_ends {limit : Option Nat} {r : Option (Option α)}
    (hends : ¬p.Passes t none es t') (h : (p.within limit).Passes t r es t') :
    (∃ a, r = some (some a) ∧ p.Passes t (some a) es t') ∨
    limit ≠ none ∧ r = some none ∧ p.Begins t es := by
  rcases passes_within h with hended | hcut | ⟨_, hstall⟩
  · exact .inl hended
  · exact .inr hcut
  · exact absurd hstall hends

end Activity

end DataPipeline
