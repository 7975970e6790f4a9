import DataPipeline.Proofs.Run.Passage

namespace DataPipeline

theorem Op.nonempty_answer (op : Op) : Nonempty op.Answer := by
  cases op with
  | offer => exact ⟨([] : List Batch)⟩
  | makeDirectories | openFile | append => exact ⟨(.ok () : Except FileError Unit)⟩
  | print | note | count => exact ⟨()⟩

open Classical in
/-- What was done besides leaving marks. -/
noncomputable def unmarked (marks : Op → Prop) (es : List Event) : List Event :=
  es.filter fun e => ¬marks e.op

namespace Activity

variable {α β : Type}

/-- The second activity does what the first one does. It may leave marks anywhere, whatever
these are answered. -/
inductive Annotates (marks : Op → Prop) : Activity α → Activity α → Prop where
  | done (a : α) : Annotates marks (.done a) (.done a)
  | act {op : Op} {next next' : op.Answer → Activity α} (hop : ¬marks op)
      (h : ∀ answer, Annotates marks (next answer) (next' answer)) :
      Annotates marks (.act op next) (.act op next')
  | mark {p} {m : Op} {q : m.Answer → Activity α} (hm : marks m)
      (h : ∀ answer, Annotates marks p (q answer)) :
      Annotates marks p (.act m q)
  | sleep {p q} (ms : Nat) (h : Annotates marks p q) :
      Annotates marks (.sleep ms p) (.sleep ms q)
  | stall : Annotates marks .stall .stall

variable {marks : Op → Prop} {p q : Activity α} {t t' : Nat} {r : Option α} {es : List Event}

theorem Annotates.bind {f g : α → Activity β} (h : Annotates marks p q)
    (hf : ∀ a, Annotates marks (f a) (g a)) : Annotates marks (p.bind f) (q.bind g) := by
  induction h with
  | done a => exact hf a
  | act hop h ih => exact .act hop ih
  | mark hm h ih => exact .mark hm ih
  | sleep ms h ih => exact .sleep ms ih
  | stall => exact .stall

theorem Annotates.cutAfter (h : Annotates marks p q) (limit : Nat) :
    Annotates marks (p.cutAfter limit) (q.cutAfter limit) := by
  induction h generalizing limit with
  | done a => exact .done (some a)
  | act hop h ih => exact .act hop fun answer => ih answer limit
  | mark hm h ih => exact .mark hm fun answer => ih answer limit
  | sleep ms h ih =>
    rw [Activity.cutAfter, Activity.cutAfter]
    split
    · exact .sleep ms (ih _)
    · exact .sleep limit (.done none)
  | stall => exact .sleep limit (.done none)

theorem Annotates.within (h : Annotates marks p q) (limit : Option Nat) :
    Annotates marks (p.within limit) (q.within limit) := by
  cases limit with
  | some ms => exact h.cutAfter ms
  | none => exact h.bind fun a => .done (some a)

/-- Whatever course an activity takes, it can take it with its marks. -/
theorem Annotates.passes (h : Annotates marks p q) (hp : p.Passes t r es t') :
    ∃ es', q.Passes t r es' t' ∧ unmarked marks es' = es := by
  induction h generalizing t es with
  | done a =>
    cases hp
    exact ⟨[], .done a _, rfl⟩
  | act hop h ih =>
    cases hp with
    | act answer hp =>
      obtain ⟨es', hq, rfl⟩ := ih answer hp
      exact ⟨_, .act answer hq, List.filter_cons_of_pos (by simpa using hop)⟩
  | @mark p m q hm h ih =>
    obtain ⟨answer⟩ := m.nonempty_answer
    obtain ⟨es', hq, rfl⟩ := ih answer hp
    exact ⟨_, .act answer hq, List.filter_cons_of_neg (by simpa using hm)⟩
  | sleep ms h ih =>
    cases hp with
    | sleep hp =>
      obtain ⟨es', hq, hes⟩ := ih hp
      exact ⟨es', .sleep hq, hes⟩
  | stall =>
    cases hp
    exact ⟨[], .stall _, rfl⟩

/-- Every action that an activity may take satisfies a condition. -/
def Only (P : Op → Prop) : Activity α → Prop
  | done _ | stall => True
  | act op next => P op ∧ ∀ answer, (next answer).Only P
  | sleep _ next => next.Only P

variable {P P' : Op → Prop}

theorem Only.mono (h : p.Only P) (hP : ∀ op, P op → P' op) : p.Only P' := by
  induction p with
  | done | stall => trivial
  | act op next ih => exact ⟨hP op h.1, fun answer => ih answer (h.2 answer)⟩
  | sleep ms next ih => exact ih h

theorem Only.bind {f : α → Activity β} (h : p.Only P) (hf : ∀ a, (f a).Only P) :
    (p.bind f).Only P := by
  induction p with
  | done a => exact hf a
  | act op next ih => exact ⟨h.1, fun answer => ih answer (h.2 answer)⟩
  | sleep ms next ih => exact ih h
  | stall => trivial

theorem Only.cutAfter (h : p.Only P) (limit : Nat) : (p.cutAfter limit).Only P := by
  induction p generalizing limit with
  | done | stall => trivial
  | act op next ih => exact ⟨h.1, fun answer => ih answer (h.2 answer) limit⟩
  | sleep ms next ih =>
    rw [Activity.cutAfter]
    split
    · exact ih h _
    · trivial

theorem Only.within (h : p.Only P) (limit : Option Nat) : (p.within limit).Only P := by
  cases limit with
  | some ms => exact h.cutAfter ms
  | none => exact h.bind fun _ => trivial

theorem Only.passes (h : p.Only P) (hp : p.Passes t r es t') : ∀ e ∈ es, P e.op := by
  induction hp with
  | done | stall => nofun
  | act answer hp ih => exact List.forall_mem_cons.2 ⟨h.1, ih (h.2 answer)⟩
  | sleep hp ih => exact ih h

theorem Only.annotates (h : p.Only fun op => ¬marks op) : Annotates marks p p := by
  induction p with
  | done a => exact .done a
  | act op next ih => exact .act h.1 fun answer => ih answer (h.2 answer)
  | sleep ms next ih => exact .sleep ms (ih h)
  | stall => exact .stall

end Activity

end DataPipeline
