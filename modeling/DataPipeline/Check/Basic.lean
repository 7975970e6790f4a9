import DataPipeline.Check.Finding
import DataPipeline.Plugin.Registry

namespace DataPipeline

namespace Check

/-- What is wrong with a plugin: it is not there, or it names an entry that cannot be seen. -/
def plugin (registry : Registry) (kind : PluginKind) (ref : PluginRef) (place : NodePath)
    (scope : List String) : Findings :=
  match registry.mergedConfig kind ref with
  | .error e => .problem (.plugin place e)
  | .ok config =>
    match config.get? referenceKey with
    | some (.string id) =>
      if scope.contains id then .none
      else .problem (.undeclaredReference place kind ref.name id)
    | some value => .problem (.referenceNotText place kind ref.name value)
    | none => .none

mutual

/-- Checks a node and what it holds; `visible` are the ids of the libraries around it. -/
def node (registry : Registry) : Schema → List String → NodePath → Findings
  | ⟨component, referenceId, library, config, children, child, generator, datajet, stage⟩,
    visible, path =>
    let schema : Schema :=
      ⟨component, referenceId, library, config, children, child, generator, datajet, stage⟩
    match schema.resolve path.text with
    | .error e => .problem (.unresolved e)
    | .ok spec =>
      let (found, declared) := entries registry library visible path 0 []
      let scope := visible ++ declared
      found ++
        match spec with
        | .stage generator datajet _ =>
          plugin registry .generator generator path scope ++
            plugin registry .datajet datajet path scope
        | .synchronizer _ _ =>
          (if children.isEmpty then .doubt (.idle path) else .none) ++
            childNodes registry children scope path 0
        | .wrap wrapper _ =>
          plugin registry .wrapper wrapper path scope ++ childNode registry child scope path
        | .generator generator =>
          (if referenceId.isNone then .doubt (.unusable path) else .none) ++
            plugin registry .generator generator path scope

/-- Checks the entries of a library from the given position on; `declared` are the ids before
it. Returns all ids that the library declares. -/
def entries (registry : Registry) :
    List Schema → List String → NodePath → Nat → List String → Findings × List String
  | [], _, _, _, declared => (.none, declared)
  | entry :: rest, visible, path, index, declared =>
    let place := path.hop (.library index)
    let found := node registry entry visible place
    match entry.referenceId with
    | none =>
      let (more, declared) := entries registry rest visible path (index + 1) declared
      (found ++ .problem (.entryWithoutReference place) ++ more, declared)
    | some id =>
      if declared.contains id then
        let (more, declared) := entries registry rest visible path (index + 1) declared
        (found ++ .problem (.repeatedReference place id) ++ more, declared)
      else
        let shadowed : Findings :=
          if visible.contains id then .doubt (.shadowed place id) else .none
        let (more, declared) :=
          entries registry rest visible path (index + 1) (declared ++ [id])
        (found ++ shadowed ++ more, declared)

/-- Checks the children of a synchronizer from the given position on. -/
def childNodes (registry : Registry) :
    List Schema → List String → NodePath → Nat → Findings
  | [], _, _, _ => .none
  | child :: rest, scope, path, index =>
    node registry child scope (path.hop (.children index)) ++
      childNodes registry rest scope path (index + 1)

/-- Checks the child of a wrap. -/
def childNode (registry : Registry) : Option Schema → List String → NodePath → Findings
  | none, _, _ => .none
  | some child, scope, path => node registry child scope (path.hop .child)

end

end Check

/-- All findings in a schema. -/
def checkSchema (registry : Registry) (schema : Schema) : Findings :=
  Check.node registry schema [] .root

end DataPipeline
