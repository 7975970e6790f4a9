import DataPipeline.NodePath
import DataPipeline.Plugin.Basic
import DataPipeline.Text.Quoted

namespace DataPipeline

/-- A generator drained into a sink; the path of the stage keys its counters. -/
structure Stage where
  path : NodePath
  generator : Generator
  datajet : Datajet
  settings : StageSettings

inductive Node where
  | stage (stage : Stage)
  | synchronizer (children : List Node) (settings : FanOutSettings)
  | wrap (wrapper : Wrapper) (child : Node)
  | generator (generator : Generator)

namespace Node

instance : Inhabited Node := ⟨synchronizer [] {}⟩

def kind : Node → ComponentKind
  | stage _ => .stage
  | synchronizer .. => .synchronizer
  | wrap .. => .wrap
  | generator _ => .generator

def name : Node → String
  | stage s => s.generator.name ++ "->" ++ s.datajet.name
  | synchronizer .. => ComponentKind.synchronizer.name
  | wrap w _ => w.name
  | generator g => g.name

def descriptor (n : Node) : Descriptor := ⟨n.kind, n.name⟩

def children : Node → List Node
  | synchronizer children _ => children
  | wrap _ child => [child]
  | stage _ | generator _ => []

/-- The generator that a stage or a generator component publishes. -/
def generator? : Node → Option Generator
  | stage s => some s.generator
  | generator g => some g
  | synchronizer .. | wrap .. => none

mutual

/-- The tree as a developer sees it. -/
def debugText : Node → String
  | stage s => debugNode .stage (stage s).name "[]"
  | synchronizer children settings =>
    debugNode .synchronizer (synchronizer children settings).name (debugList children)
  | wrap w child => debugNode .wrap w.name ("[" ++ child.debugText ++ "]")
  | generator g => debugNode .generator g.name "[]"

def debugList : List Node → String
  | [] => "[]"
  | n :: rest => "[" ++ n.debugText ++ debugRest rest

def debugRest : List Node → String
  | [] => "]"
  | n :: rest => ", " ++ n.debugText ++ debugRest rest

/-- One node, given the text of its children. -/
def debugNode (kind : ComponentKind) (name children : String) : String :=
  "BuiltNode \x7b kind: " ++ kind.title ++ ", name: " ++ Text.quoted name ++ ", children: " ++
    children ++ " \x7d"

end

end Node

end DataPipeline
