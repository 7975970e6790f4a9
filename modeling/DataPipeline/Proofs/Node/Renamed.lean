import DataPipeline.Proofs.Build.Tree
import DataPipeline.Proofs.Node.Lockstep
import DataPipeline.Proofs.Run.Mirrors

namespace DataPipeline

open Activity

/-- A stage whose generator has the name for its place, if there is one. -/
def Stage.rename (names : NodePath → Option String) (s : Stage) : Stage :=
  { s with generator := { s.generator with name := (names s.path).getD s.generator.name } }

namespace Node

mutual

/-- A tree whose stages are renamed. -/
def rename (names : NodePath → Option String) : Node → Node
  | stage s => stage (s.rename names)
  | synchronizer children fan => synchronizer (renameAll names children) fan
  | wrap w child => wrap w (child.rename names)
  | generator g => generator g

def renameAll (names : NodePath → Option String) : List Node → List Node
  | [] => []
  | n :: rest => n.rename names :: renameAll names rest

end

theorem renameAll_eq {names : NodePath → Option String} {nodes : List Node} :
    renameAll names nodes = nodes.map (rename names) := by
  induction nodes with
  | nil => rfl
  | cons n nodes ih => rw [renameAll, ih, List.map_cons]

end Node

namespace Stage

variable {names : NodePath → Option String} {s : Stage} {settings : RunSettings}
  {ctx : RunContext} {Text : String → String → Prop} {Label : String → String → String → Prop}

/-- What changes of the texts of a stage, and what may stay. -/
structure Relabels (names : NodePath → Option String) (Text : String → String → Prop)
    (Label : String → String → String → Prop) (s : Stage) : Prop where
  same : ∀ t, Text t t
  text : ∀ rest, Text (s.generator.name ++ rest) ((s.rename names).generator.name ++ rest)
  label : Label s.path.text (Node.stage s).name (Node.stage (s.rename names)).name

theorem Relabels.matches (h : s.Relabels names Text Label) :
    s.Matches (MirrorPairs Label) Text (s.rename names) := by
  have hsame {α : Type} (p : Activity α) : InStep (MirrorPairs Label) Eq p p :=
    mirrors_iff_inStep.1 (.refl (fun _ => rfl) p)
  constructor
  case offer => exact fun _ => .same _
  case count => exact fun o => .count o h.label
  case generator => exact fun ctx => hsame _
  case length => exact fun _ => rfl
  case pull => exact fun ctx i => hsame _
  case datajet => exact fun ctx => hsame _
  case transmit => exact fun earlier batch ctx => hsame _
  case settings => rfl
  case same => exact h.same
  case generatorText => exact h.text
  case datajetName => rfl

theorem mirrors_execute (h : s.Relabels names Text Label) :
    Mirrors Label (Outcome.Alike Text) (s.execute settings ctx)
      ((s.rename names).execute settings ctx) := by
  rw [mirrors_iff_inStep]
  exact h.matches.execute

end Stage

/-- A tree runs as before if its stages are renamed, but for what changes of their texts. -/
theorem Node.mirrors_execute {names : NodePath → Option String} {Text : String → String → Prop}
    {Label : String → String → String → Prop} {n : Node} (hn : n.Shaped) (hsame : ∀ t, Text t t)
    (h : ∀ s ∈ n.stages, s.Relabels names Text Label) (settings : RunSettings)
    (ctx : RunContext) :
    Mirrors Label (Outcome.Alike Text) (n.execute settings ctx)
      ((n.rename names).execute settings ctx) := by
  have haggregate {d d' : Descriptor} (kind : d.kind = d'.kind) (name : Text d.name d'.name)
      {p q : Activity (List Outcome)}
      (h : Mirrors Label (List.Forall₂ (Outcome.Alike Text)) p q) :
      Mirrors Label (Outcome.Alike Text) (p.bind fun os => .done (Outcome.aggregate d os))
        (q.bind fun os => .done (Outcome.aggregate d' os)) :=
    h.bind fun _ _ hos => .done (.aggregate kind name hos)
  induction hn generalizing ctx with
  | stage s => exact Stage.mirrors_execute (h s List.mem_cons_self)
  | @synchronizer children fan hlimit hchildren ih =>
    rw [rename, execute_synchronizer, execute_synchronizer, renameAll_eq]
    apply haggregate rfl (hsame _)
    apply mirrors_fanOut
    rw [List.map_map, List.forall₂_map_left_iff, List.forall₂_map_right_iff, List.forall₂_same]
    intro c hc
    apply ih c hc
    intro s hs
    exact h s (mem_stages_synchronizer.2 ⟨_, hc, hs⟩)
  | passthrough hchild ih => exact ih h ctx
  | repeated htimes hchild ih =>
    apply haggregate rfl (hsame _)
    rw [mirrors_iff_inStep]
    apply inStep_repeatFrom
    intro ctx
    exact mirrors_iff_inStep.1 (ih h ctx)
  | generator g => exact .done (.intro rfl (hsame _) .nil .nil)

namespace Node

/-- Texts that are the same, or that begin with the old and the new name of a generator in a
tree. -/
def Rewords (names : NodePath → Option String) (n : Node) (t t' : String) : Prop :=
  t = t' ∨ ∃ s ∈ n.stages, ∃ name rest, names s.path = some name ∧
    t = s.generator.name ++ rest ∧
    t' = name ++ rest

/-- Labels at a path that are the same, or that are those of the stage there, with the old and
the new name of its generator. -/
def Relabels (names : NodePath → Option String) (n : Node) (path t t' : String) : Prop :=
  t = t' ∨ ∃ s ∈ n.stages, ∃ name, names s.path = some name ∧ s.path.text = path ∧
    t = s.generator.name ++ "->" ++ s.datajet.name ∧ t' = name ++ "->" ++ s.datajet.name

theorem relabels_of_mem {names : NodePath → Option String} {n : Node} {s : Stage}
    (hs : s ∈ n.stages) : s.Relabels names (n.Rewords names) (n.Relabels names) := by
  cases hname : names s.path with
  | none =>
    have hsame : s.rename names = s := by rw [Stage.rename, hname, Option.getD_none]
    refine ⟨fun _ => .inl rfl, fun _ => .inl ?_, .inl ?_⟩
    · rw [hsame]
    · rw [hsame]
  | some name =>
    have hrename :
        (s.rename names).generator.name = name := by rw [Stage.rename, hname, Option.getD_some]
    refine ⟨fun _ => .inl rfl, fun rest => .inr ⟨s, hs, name, rest, hname, rfl, ?_⟩,
      .inr ⟨s, hs, name, hname, rfl, rfl, ?_⟩⟩
    · rw [hrename]
    · rw [Node.name, hrename]
      rfl

end Node

end DataPipeline
