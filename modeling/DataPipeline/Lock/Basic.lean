import DataPipeline.Disk.Basic
import DataPipeline.Lock.Sha256
import DataPipeline.Plugin.Registry
import DataPipeline.Yaml.Written

namespace DataPipeline

structure PluginLock where
  kind : PluginKind
  name : String
  digest : String
  deriving DecidableEq, Inhabited, Repr

structure NodeLock where
  path : NodePath
  component : ComponentKind
  referenceId : Option String
  plugins : List PluginLock
  deriving DecidableEq, Inhabited, Repr

namespace Lock

/-- The text whose digest pins a plugin: equal settings have equal texts, for keys are
sorted. -/
def pinned (kind : PluginKind) (name : String) (config : Fields) : String :=
  kind.name ++ name ++ (Json.object config).compact

def plugin (registry : Registry) (kind : PluginKind) (ref : PluginRef) :
    Except BuildError PluginLock := do
  let config ← registry.mergedConfig kind ref
  .ok ⟨kind, ref.name, Sha256.hex (pinned kind ref.name config).toUTF8.toList⟩

/-- The plugins of a node, not those of the nodes it holds. -/
def plugins (registry : Registry) : Spec → Except BuildError (List PluginLock)
  | .stage generator datajet _ => do
    let g ← plugin registry .generator generator
    let d ← plugin registry .datajet datajet
    .ok [g, d]
  | .synchronizer _ _ => .ok []
  | .wrap wrapper _ => do .ok [← plugin registry .wrapper wrapper]
  | .generator generator => do .ok [← plugin registry .generator generator]

mutual

/-- Pins a node and what it holds. -/
def node (registry : Registry) : Schema → NodePath → Except BuildError (List NodeLock)
  | ⟨component, referenceId, library, config, children, child, generator, datajet, stage⟩,
    path => do
    let schema : Schema :=
      ⟨component, referenceId, library, config, children, child, generator, datajet, stage⟩
    let spec ← schema.resolve path.text
    let pins ← plugins registry spec
    let entries ← nodes registry library path .library 0
    let inner ←
      match spec with
      | .synchronizer _ _ => nodes registry children path .children 0
      | .wrap _ _ => childNode registry child path
      | .stage .. | .generator _ => .ok []
    .ok (⟨path, spec.kind, referenceId, pins⟩ :: entries ++ inner)

/-- Pins the nodes of a list from the given position on. -/
def nodes (registry : Registry) :
    List Schema → NodePath → (Nat → Hop) → Nat → Except BuildError (List NodeLock)
  | [], _, _, _ => .ok []
  | s :: rest, path, hop, index => do
    let first ← node registry s (path.hop (hop index))
    let others ← nodes registry rest path hop (index + 1)
    .ok (first ++ others)

def childNode (registry : Registry) :
    Option Schema → NodePath → Except BuildError (List NodeLock)
  | none, _ => .ok []
  | some child, path => node registry child (path.hop .child)

end

end Lock

/-- Pins every node of a schema. -/
def lockSchema (registry : Registry) (schema : Schema) : Except BuildError (List NodeLock) :=
  Lock.node registry schema .root

namespace Lock

def pluginText (p : PluginLock) : List Char :=
  Yaml.writtenItem 2 [("kind", p.kind.name), ("name", p.name), ("config_hash", p.digest)]

def nodeText (n : NodeLock) : List Char :=
  Yaml.writtenItem 0 ([("path", n.path.text), ("component", n.component.name)] ++
    (n.referenceId.map fun id => ("reference_id", id)).toList) ++
  match n.plugins with
  | [] => []
  | p :: rest => "  plugins:\n".toList ++ (p :: rest).flatMap pluginText

/-- The text of a lockfile made at a given time. -/
def text (generatedAt : String) (nodes : List NodeLock) : String :=
  String.ofList (Yaml.writtenField 0 "generated_at" generatedAt ++
    (if nodes.isEmpty then
      "nodes: []\n".toList else "nodes:\n".toList ++ nodes.flatMap nodeText))

/-- Writes the text of a lockfile to a path seen from the current directory. -/
def store (disk : Disk) (cwd path text : String) : Except Chain Disk :=
  (disk.write (FilePath.seenFrom cwd path) text).mapError fun e =>
    ⟨"Failed to create lockfile: " ++ path, [e.message]⟩

end Lock

end DataPipeline
