import DataPipeline.Proofs.Run.Lockstep

namespace DataPipeline

/-- The same action, or one that counts the same at the same place under another label. -/
inductive Op.Mirrors (Label : String → String → String → Prop) : Op → Op → Prop where
  | same (op : Op) : Mirrors Label op op
  | count {path label label' : String} (o : Occurrence) (h : Label path label label') :
      Mirrors Label (.count path label o) (.count path label' o)

namespace Activity

/-- The second activity does what the first one does, but for the labels it counts under, and
ends with a value that is related to that of the first. -/
inductive Mirrors (Label : String → String → String → Prop) {α β : Type}
    (Value : α → β → Prop) :
    Activity α → Activity β → Prop where
  | done {a b} (h : Value a b) : Mirrors Label Value (.done a) (.done b)
  | act {op : Op} {next : op.Answer → Activity α} {next' : op.Answer → Activity β}
      (h : ∀ answer, Mirrors Label Value (next answer) (next' answer)) :
      Mirrors Label Value (.act op next) (.act op next')
  | count {path label label' : String} {o : Occurrence} {next : Unit → Activity α}
      {next' : Unit → Activity β} (hlabel : Label path label label')
      (h : Mirrors Label Value (next ()) (next' ())) :
      Mirrors Label Value (.act (.count path label o) next) (.act (.count path label' o) next')
  | sleep {p q} (ms : Nat) (h : Mirrors Label Value p q) :
      Mirrors Label Value (.sleep ms p) (.sleep ms q)
  | stall : Mirrors Label Value .stall .stall

variable {Label : String → String → String → Prop} {α β γ δ : Type} {Value : α → β → Prop}
  {p : Activity α} {q : Activity β}

theorem Mirrors.refl {Value : α → α → Prop} (h : ∀ a, Value a a) (p : Activity α) :
    Mirrors Label Value p p := by
  induction p with
  | done a => exact .done (h a)
  | act op next ih => exact .act ih
  | sleep ms next ih => exact .sleep ms ih
  | stall => exact .stall

/-- The same actions go together, and those that count the same under labels that do. -/
inductive MirrorPairs (Label : String → String → String → Prop) : Op.Pairing where
  | same (op : Op) : MirrorPairs Label op op Eq
  | count {path label label' : String} (o : Occurrence) (h : Label path label label') :
      MirrorPairs Label (.count path label o) (.count path label' o) Eq

/-- To mirror an activity is to keep in step with it. -/
theorem mirrors_iff_inStep :
    Mirrors Label Value p q ↔ InStep (MirrorPairs Label) Value p q := by
  constructor
  · intro h
    induction h with
    | done h => exact .done h
    | act h ih =>
      apply InStep.act (.same _)
      rintro answer _ rfl
      exact ih answer
    | count hlabel h ih => exact .act (.count _ hlabel) fun _ _ _ => ih
    | sleep ms h ih => exact .sleep ms ih
    | stall => exact .stall
  · intro h
    induction h with
    | done h => exact .done h
    | act hop h ih =>
      cases hop with
      | same op => exact .act fun answer => ih answer answer rfl
      | count o hlabel => exact .count hlabel (ih () () rfl)
    | sleep ms h ih => exact .sleep ms ih
    | stall => exact .stall

theorem Mirrors.bind {Value' : γ → δ → Prop} {f : α → Activity γ} {g : β → Activity δ}
    (h : Mirrors Label Value p q) (hf : ∀ a b, Value a b → Mirrors Label Value' (f a) (g b)) :
    Mirrors Label Value' (p.bind f) (q.bind g) := by
  rw [mirrors_iff_inStep] at h ⊢
  apply h.bind
  intro a b hab
  exact mirrors_iff_inStep.1 (hf a b hab)

theorem mirrors_fanOut {limit : Option Nat} {ps : List (Activity α)} {qs : List (Activity β)}
    (h : List.Forall₂ (Mirrors Label Value) ps qs) :
    Mirrors Label (List.Forall₂ Value) (fanOut limit ps) (fanOut limit qs) := by
  rw [mirrors_iff_inStep]
  apply inStep_fanOut
  apply h.imp
  intro p q hpq
  exact mirrors_iff_inStep.1 hpq

end Activity

/-- The same counters of the same place, perhaps under another label. -/
structure StageMetrics.Mirrors (Label : String → String → String → Prop)
    (e e' : String × StageMetrics) : Prop where
  place : e.1 = e'.1
  label : Label e.1 e.2.stage e'.2.stage
  counters : e'.2 = { e.2 with stage := e'.2.stage }

/-- Worlds that differ in the labels of their counters only. -/
structure World.Mirrors (Label : String → String → String → Prop) (w w' : World) : Prop where
  rest : w' = { w with metrics := w'.metrics }
  counters : List.Forall₂ (StageMetrics.Mirrors Label) w.metrics.stages w'.metrics.stages
  total : w'.metrics.totalDurationMs = w.metrics.totalDurationMs

section

variable {Label : String → String → String → Prop} {w w' : World} {path label label' : String}
  {o : Occurrence}

theorem StageMetrics.Mirrors.add {c c' : StageMetrics}
    (h : Mirrors Label (path, c) (path, c')) :
    Mirrors Label (path, c.add o) (path, c'.add o) := by
  obtain ⟨_, hlabel, hcounters⟩ := h
  dsimp only at hlabel hcounters
  rw [hcounters]
  cases o with
  | batch | invalid => exact ⟨rfl, hlabel, rfl⟩
  | call failed => cases failed <;> exact ⟨rfl, hlabel, rfl⟩

theorem StageMetrics.mirrors_add (h : Label path label label') :
    Mirrors Label (path, add { stage := label } o) (path, add { stage := label' } o) :=
  Mirrors.add ⟨rfl, h, rfl⟩

theorem Metrics.mirrors_addTo {entries entries' : List (String × StageMetrics)}
    (h : List.Forall₂ (StageMetrics.Mirrors Label) entries entries')
    (hlabel : Label path label label') :
    List.Forall₂ (StageMetrics.Mirrors Label) (addTo path label o entries)
      (addTo path label' o entries') := by
  induction h with
  | nil => exact .cons (StageMetrics.mirrors_add hlabel) .nil
  | @cons e e' entries entries' he hrest ih =>
    obtain ⟨p, c⟩ := e
    obtain ⟨p', c'⟩ := e'
    cases he.place
    rw [addTo, addTo]
    split
    · exact .cons (StageMetrics.mirrors_add hlabel) (.cons he hrest)
    · split
      · exact .cons he.add hrest
      · exact .cons he ih

theorem World.mirrors_refl (hrefl : ∀ path label, Label path label label) (w : World) :
    w.Mirrors Label w where
  rest := rfl
  counters := List.forall₂_same.2 fun _ _ => ⟨rfl, hrefl _ _, rfl⟩
  total := rfl

theorem World.Mirrors.now_eq (h : w.Mirrors Label w') : w'.now = w.now := by
  rw [h.rest]

theorem World.Mirrors.sleep (h : w.Mirrors Label w') (ms : Nat) :
    World.Mirrors Label { w with now := w.now + ms } { w' with now := w'.now + ms } where
  rest := by
    dsimp only
    rw [h.rest]
  counters := h.counters
  total := h.total

theorem World.Mirrors.count (h : w.Mirrors Label w') (hlabel : Label path label label') :
    (w.perform (.count path label o)).2.Mirrors Label
      (w'.perform (.count path label' o)).2 where
  rest := by
    rw [h.rest]
    rfl
  counters := Metrics.mirrors_addTo h.counters hlabel
  total := h.total

theorem World.Mirrors.perform (hrefl : ∀ path label, Label path label label)
    (h : w.Mirrors Label w') (op : Op) : (w'.perform op).1 = (w.perform op).1 ∧
    (w.perform op).2.Mirrors Label (w'.perform op).2 := by
  obtain ⟨hrest, hcounters, htotal⟩ := h
  cases op with
  | count path label o =>
    exact ⟨rfl, World.Mirrors.count ⟨hrest, hcounters, htotal⟩ (hrefl path label)⟩
  | offer | print | makeDirectories | note =>
    rw [hrest]
    exact ⟨rfl, rfl, hcounters, htotal⟩
  | openFile | append =>
    have hdisk : w'.disk = w.disk := by rw [hrest]
    rw [World.perform, World.perform, World.append, World.append, hdisk]
    cases w.disk.append _ _ with
    | ok disk =>
      refine ⟨rfl, ?_, hcounters, htotal⟩
      dsimp only
      rw [hrest]
    | error e => exact ⟨rfl, hrest, hcounters, htotal⟩

namespace Activity

variable {α β : Type} {Value : α → β → Prop} {p : Activity α} {q : Activity β}

theorem Mirrors.run (hrefl : ∀ path label, Label path label label) (h : Mirrors Label Value p q)
    (hw : w.Mirrors Label w') :
    Option.Rel (fun e e' => Value e.1 e'.1 ∧ e.2.Mirrors Label e'.2) (p.run w) (q.run w') := by
  induction h generalizing w w' with
  | done h => exact .some ⟨h, hw⟩
  | @act op next next' h ih =>
    obtain ⟨hanswer, hnext⟩ := hw.perform hrefl op
    rw [Activity.run, Activity.run, hanswer]
    exact ih _ hnext
  | count hlabel h ih => exact ih (hw.count hlabel)
  | sleep ms h ih => exact ih (hw.sleep ms)
  | stall => exact .none

theorem Mirrors.timeline (hrefl : ∀ path label, Label path label label)
    (h : Mirrors Label Value p q) (hw : w.Mirrors Label w') :
    List.Forall₂ (fun e e' => e.1 = e'.1 ∧ Op.Mirrors Label e.2 e'.2) (p.timeline w)
      (q.timeline w') := by
  induction h generalizing w w' with
  | done h => exact .nil
  | @act op next next' h ih =>
    obtain ⟨hanswer, hnext⟩ := hw.perform hrefl op
    rw [Activity.timeline, Activity.timeline, hanswer]
    exact .cons ⟨hw.now_eq.symm, .same op⟩ (ih _ hnext)
  | count hlabel h ih => exact .cons ⟨hw.now_eq.symm, .count _ hlabel⟩ (ih (hw.count hlabel))
  | sleep ms h ih => exact ih (hw.sleep ms)
  | stall => exact .nil

end Activity

end

end DataPipeline
