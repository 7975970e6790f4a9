import DataPipeline.Proofs.Run.Follows

namespace DataPipeline

/-- Which actions go together, and which of their answers. -/
abbrev Op.Pairing := (op op' : Op) → (op.Answer → op'.Answer → Prop) → Prop

namespace Activity

/-- Two activities act, sleep and end together; after answers that go together they are in step
again. -/
inductive InStep (Pairs : Op.Pairing) {α β : Type} (Value : α → β → Prop) :
    Activity α → Activity β → Prop where
  | done {a b} (h : Value a b) : InStep Pairs Value (.done a) (.done b)
  | act {op op' : Op} {next : op.Answer → Activity α} {next' : op'.Answer → Activity β}
      {Answers : op.Answer → op'.Answer → Prop} (hop : Pairs op op' Answers)
      (h : ∀ answer answer', Answers answer answer' →
        InStep Pairs Value (next answer) (next' answer')) :
      InStep Pairs Value (.act op next) (.act op' next')
  | sleep {p q} (ms : Nat) (h : InStep Pairs Value p q) :
      InStep Pairs Value (.sleep ms p) (.sleep ms q)
  | stall : InStep Pairs Value .stall .stall

variable {Pairs : Op.Pairing} {α β : Type} {Value : α → β → Prop} {p : Activity α}
  {q : Activity β}

theorem InStep.bind {γ δ : Type} {Value' : γ → δ → Prop} {f : α → Activity γ}
    {g : β → Activity δ} (h : InStep Pairs Value p q)
    (hf : ∀ a b, Value a b → InStep Pairs Value' (f a) (g b)) :
    InStep Pairs Value' (p.bind f) (q.bind g) := by
  induction h with
  | done h => exact hf _ _ h
  | act hop h ih => exact .act hop ih
  | sleep ms h ih => exact .sleep ms ih
  | stall => exact .stall

theorem InStep.imp {Value' : α → β → Prop} (h : InStep Pairs Value p q)
    (himp : ∀ a b, Value a b → Value' a b) : InStep Pairs Value' p q := by
  induction h with
  | done h => exact .done (himp _ _ h)
  | act hop h ih => exact .act hop ih
  | sleep ms h ih => exact .sleep ms ih
  | stall => exact .stall

theorem InStep.cutAfter (h : InStep Pairs Value p q) (limit : Nat) :
    InStep Pairs (Option.Rel Value) (p.cutAfter limit) (q.cutAfter limit) := by
  induction h generalizing limit with
  | done h => exact .done (.some h)
  | act hop h ih =>
    apply InStep.act hop
    intro answer answer' hanswer
    exact ih answer answer' hanswer limit
  | sleep ms h ih =>
    rw [Activity.cutAfter, Activity.cutAfter]
    split
    · exact .sleep ms (ih _)
    · exact .sleep limit (.done .none)
  | stall => exact .sleep limit (.done .none)

theorem InStep.within (h : InStep Pairs Value p q) (limit : Option Nat) :
    InStep Pairs (Option.Rel Value) (p.within limit) (q.within limit) := by
  cases limit with
  | some ms => exact h.cutAfter ms
  | none => exact h.bind fun a b hab => .done (.some hab)

theorem InStep.pause {ms : Nat} (h : InStep Pairs Value p q) :
    InStep Pairs Value (pause ms p) (pause ms q) := by
  unfold Activity.pause
  split
  · exact h
  · exact .sleep ms h

/-- Two lanes at the same time and place whose activities are in step. -/
structure Lane.InStep (Pairs : Op.Pairing) (Value : α → β → Prop) (l : Lane α) (l' : Lane β) :
    Prop where
  clock : l.clock = l'.clock
  place? : l.place? = l'.place?
  activity : Activity.InStep Pairs Value l.activity l'.activity

variable {l : Lane α} {l' : Lane β} {lanes : List (Lane α)} {lanes' : List (Lane β)}
  {waiting : List (Activity α)} {waiting' : List (Activity β)}

theorem Lane.InStep.agrees (l : Lane α) (l' : Lane β) (h : l.InStep Pairs Value l') :
    l.Agrees l' := by
  obtain ⟨clock, place?, p⟩ := l
  obtain ⟨clock', place?', p'⟩ := l'
  obtain ⟨hclock, hplace, h⟩ := h
  cases h <;> exact ⟨hclock, hplace, rfl, rfl⟩

/-- Side by side, activities that are in step with others stay in step with them. -/
theorem Advances.inStep {queued? : Option Nat} {now free : Nat} {results : List α}
    {results' : List β} {q : Activity (List α)}
    (hadvances : Advances queued? now free results lanes waiting q)
    (hresults : List.Forall₂ Value results results')
    (hlanes : List.Forall₂ (Lane.InStep Pairs Value) lanes lanes')
    (hwaiting : List.Forall₂ (Activity.InStep Pairs Value) waiting waiting') :
    Activity.InStep Pairs (List.Forall₂ Value) q
      (advance queued? now free results' lanes' waiting') := by
  induction hadvances generalizing results' lanes' waiting' with
  | finish =>
    cases hlanes
    cases hwaiting
    rw [advance]
    exact .pause (.done (List.rel_reverse hresults))
  | ended _ ih =>
    cases hlanes with
    | @cons _ l' _ rest' hl hrest =>
      cases hwaiting
      obtain ⟨clock', place?', p'⟩ := l'
      obtain ⟨rfl, rfl, hp⟩ := hl
      cases hp with
      | done hab =>
        rw [advance]
        exact ih (.cons hab hresults) hrest .nil
  | start _ ih =>
    cases hlanes with
    | @cons _ l' _ rest' hl hrest =>
      cases hwaiting with
      | cons hp hps =>
        obtain ⟨clock', place?', p'⟩ := l'
        obtain ⟨rfl, rfl, hl⟩ := hl
        cases hl with
        | done hab =>
          rw [advance]
          exact ih (.cons hab hresults) (List.rel_append hrest (.cons ⟨rfl, rfl, hp⟩ .nil)) hps
  | sleep hturn _ ih =>
    obtain ⟨before', l', after', hturn', hbefore, hlane, hafter⟩ :=
      hturn.rel Lane.InStep.agrees hlanes
    obtain ⟨clock', place?', p'⟩ := l'
    obtain ⟨rfl, rfl, hp⟩ := hlane
    cases hp with
    | sleep ms h =>
      rw [advance_sleep hturn']
      exact ih hresults (List.rel_append hbefore (.cons ⟨rfl, rfl, h⟩ hafter)) hwaiting
  | act hturn _ ih =>
    obtain ⟨before', l', after', hturn', hbefore, hlane, hafter⟩ :=
      hturn.rel Lane.InStep.agrees hlanes
    obtain ⟨clock', place?', p'⟩ := l'
    obtain ⟨rfl, rfl, hp⟩ := hlane
    cases hp with
    | act hop h =>
      rw [advance_act hturn']
      apply InStep.pause
      apply InStep.act hop
      intro answer answer' hanswer
      exact ih answer hresults
        (List.rel_append hbefore (.cons ⟨rfl, rfl, h answer answer' hanswer⟩ hafter)) hwaiting
  | stuck hturn =>
    have hturn' := Turn.next?_none_rel Lane.InStep.agrees hlanes hturn
    cases hlanes with
    | @cons _ l' _ rest' hl hrest =>
      obtain ⟨clock', place?', p'⟩ := l'
      obtain ⟨rfl, rfl, hp⟩ := hl
      cases hp with
      | stall =>
        rw [advance_stall hturn']
        exact .stall

theorem fanOut_zero (ps : List (Activity α)) :
    fanOut (some 0) ps = if ps.isEmpty then .done [] else .stall := by
  rw [fanOut, Option.getD_some, List.take_zero, List.drop_zero, List.map_nil, advance]
  rfl

theorem inStep_fanOut {limit : Option Nat} {ps : List (Activity α)} {qs : List (Activity β)}
    (h : List.Forall₂ (Activity.InStep Pairs Value) ps qs) :
    Activity.InStep Pairs (List.Forall₂ Value) (fanOut limit ps) (fanOut limit qs) := by
  by_cases hlimit : limit = some 0
  · subst hlimit
    rw [fanOut_zero, fanOut_zero]
    cases h with
    | nil => exact .done .nil
    | cons => exact .stall
  · unfold fanOut
    rw [← h.length_eq]
    apply (advances_advance (drop_started hlimit)).inStep .nil
    · rw [List.forall₂_map_left_iff, List.forall₂_map_right_iff]
      apply (List.forall₂_take _ h).imp
      intro p q hp
      exact ⟨rfl, rfl, hp⟩
    · exact List.forall₂_drop _ h

end Activity

end DataPipeline
