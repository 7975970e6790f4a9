import DataPipeline.Plugin.Registry

namespace DataPipeline

namespace Build

mutual

/-- Builds a node in the context that it is given. -/
def node (registry : Registry) : Schema → BuildContext → NodePath → Traced Node
  | ⟨component, referenceId, library, config, children, child, generator, datajet, stage⟩,
    inherited, path => do
    let schema : Schema :=
      ⟨component, referenceId, library, config, children, child, generator, datajet, stage⟩
    let spec ← Traced.of (schema.resolve path.text)
    let entries ← libraryEntries registry library inherited path 0 []
    let context := inherited.derive schema entries
    match spec with
    | .stage generator datajet settings =>
      let g ← registry.generators.create generator context
      let d ← registry.datajets.create datajet context
      .ok (.stage ⟨path, g, d, settings⟩)
    | .synchronizer _ settings =>
      let nodes ← childNodes registry children context path 0
      .ok (.synchronizer nodes settings)
    | .wrap wrapper _ =>
      let w ← registry.wrappers.create wrapper context
      let n ← childNode registry child context path
      .ok (.wrap w n)
    | .generator generator =>
      let g ← registry.generators.create generator context
      .ok (.generator g)

/-- Builds the entries of a library from the given position on; `seen` are the ids before it. -/
def libraryEntries (registry : Registry) : List Schema → BuildContext → NodePath → Nat →
    List String → Traced (List (String × Node))
  | [], _, _, _, _ => .ok []
  | entry :: rest, inherited, path, index, seen => do
    let place := path.hop (.library index)
    match entry.referenceId with
    | none => .error (.malformedSchema place.text .entryWithoutReference)
    | some id =>
      if seen.contains id then .error (.duplicateReference id place.text)
      else
        let n ← node registry entry inherited place
        let entries ← libraryEntries registry rest inherited path (index + 1) (id :: seen)
        .ok ((id, n) :: entries)

/-- Builds the children of a synchronizer from the given position on. -/
def childNodes (registry : Registry) :
    List Schema → BuildContext → NodePath → Nat → Traced (List Node)
  | [], _, _, _ => .ok []
  | child :: rest, context, path, index => do
    let n ← node registry child context (path.hop (.children index))
    let nodes ← childNodes registry rest context path (index + 1)
    .ok (n :: nodes)

/-- Builds the child of a wrap. -/
def childNode (registry : Registry) :
    Option Schema → BuildContext → NodePath → Traced Node
  | none, _, path => .error (.malformedSchema path.text .wrapWithoutChild)
  | some child, context, path => node registry child context (path.hop .child)

end

end Build

/-- Builds a pipeline; the schema is the root schema of every context below. -/
def buildPipeline (registry : Registry) (schema : Schema) (context : BuildContext) :
    Traced Node :=
  Build.node registry schema (context.withRoot schema) .root

end DataPipeline
