import DataPipeline.Proofs.Node.Lockstep
import DataPipeline.Proofs.Node.Reconciled
import DataPipeline.Proofs.Run.Moved

namespace DataPipeline

open Activity

section

variable (move : String → String)

structure Generator.Moved (g g' : Generator) : Prop where
  name : g'.name = g.name
  validate : ∀ ctx, (g.validate ctx).Moved move (g'.validate ctx)
  length : ∀ ctx, (g'.batches ctx).length = (g.batches ctx).length
  pull : ∀ ctx i, ((g.batches ctx).pull i).Moved move ((g'.batches ctx).pull i)

structure Datajet.Moved (d d' : Datajet) : Prop where
  name : d'.name = d.name
  validate : ∀ ctx, (d.validate ctx).Moved move (d'.validate ctx)
  transmit : ∀ earlier batch ctx,
    (d.transmit earlier batch ctx).Moved move (d'.transmit earlier batch ctx)

/-- Executions that do the same at places that have moved. -/
def Execution.Moved (e e' : Execution) : Prop :=
  ∀ settings ctx, (e settings ctx).Moved move (e' settings ctx)

/-- Wrappers that do nothing with their child but execute it, and do the same at places that
have moved. -/
structure Wrapper.Moved (w w' : Wrapper) : Prop where
  name : w'.name = w.name
  execute : ∀ child child' : NodeView, Execution.Moved move child.execute child'.execute →
    Execution.Moved move (w.execute child) (w'.execute child')

structure Stage.Moved (s s' : Stage) : Prop where
  path : s'.path.text = move s.path.text
  generator : s.generator.Moved move s'.generator
  datajet : s.datajet.Moved move s'.datajet
  settings : s'.settings = s.settings

/-- Trees of one shape, with the same plugins at places that have moved. -/
inductive Node.Moved : Node → Node → Prop where
  | stage {s s'} (h : s.Moved move s') : Moved (.stage s) (.stage s')
  | synchronizer {children children' fan} (hlength : children.length = children'.length)
      (h : ∀ pair ∈ children.zip children', Moved pair.1 pair.2) :
      Moved (.synchronizer children fan) (.synchronizer children' fan)
  | wrap {w w' c c'} (hw : w.Moved move w') (h : Moved c c') : Moved (.wrap w c) (.wrap w' c')
  | generator {g g'} (h : g.Moved move g') : Moved (.generator g) (.generator g')

end

variable {move : String → String}

theorem Activity.OfPlugin.moved {α : Type} {p : Activity α} (h : p.OfPlugin) :
    p.Moved move p := by
  induction p with
  | done a => exact .done rfl
  | act op next ih =>
    apply InStep.act (.plugin h.1)
    rintro answer _ rfl
    exact ih answer (h.2 answer)
  | sleep ms next ih => exact .sleep ms (ih h)
  | stall => exact .stall

theorem Outcome.Alike.eq {o o' : Outcome} (h : o.Alike Eq o') : o = o' := by
  induction o using Outcome.induction generalizing o' with
  | _ o ih =>
    cases h with
    | @intro d d' valid success pending children children' errors errors' kind name
        inner texts =>
      have hd : d = d' := by
        cases d
        cases d'
        cases kind
        cases name
        rfl
      have hchildren : children = children' := by
        rw [← List.forall₂_eq_eq_eq]
        exact forall₂_imp_mem inner fun c hc c' h => ih c hc h
      rw [List.forall₂_eq_eq_eq] at texts
      rw [hd, hchildren, texts]

theorem Stage.Moved.matches {s s' : Stage} (h : s.Moved move s') :
    s.Matches (Op.Moves move) Eq s' := by
  have hname : (Node.stage s').name = (Node.stage s).name := by
    rw [Node.name, Node.name, h.generator.name, h.datajet.name]
  constructor
  case offer =>
    rw [h.path]
    exact fun batch => .offer _ batch
  case count =>
    rw [h.path, hname]
    exact fun o => .count _ _ o
  case generator => exact h.generator.validate
  case length => exact h.generator.length
  case pull => exact h.generator.pull
  case datajet => exact h.datajet.validate
  case transmit => exact h.datajet.transmit
  case settings => exact h.settings
  case same => exact fun _ => rfl
  case generatorText =>
    intro rest
    rw [h.generator.name]
  case datajetName => exact h.datajet.name

namespace Execution

variable {child child' : Execution}

theorem moved_synchronizer {children children' : List Node} {fan : FanOutSettings}
    (h : List.Forall₂
      (fun c c' => Execution.Moved move c.execute c'.execute) children children') :
    Execution.Moved move (Node.synchronizer children fan).execute
      (Node.synchronizer children' fan).execute := by
  intro settings ctx
  rw [Node.execute_synchronizer, Node.execute_synchronizer]
  have hall : List.Forall₂ (Activity.Moved move) (children.map (·.execute settings ctx))
      (children'.map (·.execute settings ctx)) := by
    rw [List.forall₂_map_left_iff, List.forall₂_map_right_iff]
    apply h.imp
    intro c c' hc
    exact hc settings ctx
  apply InStep.bind (inStep_fanOut hall)
  intro os os' hos
  rw [List.forall₂_eq_eq_eq] at hos
  cases hos
  exact .done rfl

theorem moved_wrap {w w' : Wrapper} {c c' : Node} (hw : w.Moved move w')
    (h : Execution.Moved move c.execute c'.execute) :
    Execution.Moved move (Node.wrap w c).execute (Node.wrap w' c').execute :=
  hw.execute _ _ h

end Execution

namespace Node.Moved

variable {n n' : Node}

theorem execute (h : n.Moved move n') : Execution.Moved move n.execute n'.execute := by
  induction h with
  | stage h =>
    intro settings ctx
    apply InStep.imp h.matches.execute
    intro o o' ho
    exact ho.eq
  | synchronizer hlength h ih =>
    apply Execution.moved_synchronizer
    rw [List.forall₂_iff_zip]
    exact ⟨hlength, fun hmem => ih _ hmem⟩
  | wrap hw h ih => exact Execution.moved_wrap hw ih
  | generator h =>
    intro settings ctx
    rw [Node.execute, Node.execute, view, view, descriptor, descriptor, Node.name,
      Node.name, h.name]
    exact .done rfl

theorem kind_eq (h : n.Moved move n') : n'.kind = n.kind := by
  cases h <;> rfl

theorem generator? (h : n.Moved move n') :
    Option.Rel (Generator.Moved move) n.generator? n'.generator? := by
  cases h with
  | stage h => exact .some h.generator
  | generator h => exact .some h
  | synchronizer | wrap => exact .none

end Node.Moved

section Plugins

variable {g : Generator} {d : Datajet}

theorem Generator.moved_self (hvalidate : ∀ ctx, (g.validate ctx).OfPlugin)
    (hpull : ∀ ctx i, ((g.batches ctx).pull i).OfPlugin) : g.Moved move g where
  name := rfl
  validate ctx := (hvalidate ctx).moved
  length _ := rfl
  pull ctx i := (hpull ctx i).moved

theorem Generator.Silent.moved (h : g.Silent) : g.Moved move g := by
  apply Generator.moved_self
  · intro ctx
    obtain ⟨⟨v, hv⟩, _⟩ := h ctx
    rw [hv]
    trivial
  · intro ctx i
    obtain ⟨item, hitem⟩ := (h ctx).2 i
    rw [hitem]
    trivial

theorem Generator.Moved.library {g' : Generator} (h : g.Moved move g') :
    (libraryGenerator g).Moved move (libraryGenerator g') :=
  ⟨rfl, h.validate, h.length, h.pull⟩

theorem Datajet.moved_self (hvalidate : ∀ ctx, (d.validate ctx).OfPlugin)
    (htransmit : ∀ earlier batch ctx, (d.transmit earlier batch ctx).OfPlugin) :
    d.Moved move d where
  name := rfl
  validate ctx := (hvalidate ctx).moved
  transmit earlier batch ctx := (htransmit earlier batch ctx).moved

theorem passthroughWrapper_moved : passthroughWrapper.Moved move passthroughWrapper :=
  ⟨rfl, fun _ _ h => h⟩

theorem repeatWrapper_moved (times : Nat) :
    (repeatWrapper times).Moved move (repeatWrapper times) := by
  refine ⟨rfl, ?_⟩
  intro child child' h settings ctx
  apply InStep.bind (inStep_repeatFrom fun ctx => h settings ctx)
  intro os os' hos
  rw [List.forall₂_eq_eq_eq] at hos
  cases hos
  exact .done rfl

end Plugins

end DataPipeline
