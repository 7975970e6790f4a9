import DataPipeline.Document.JsonText
import DataPipeline.Schema.Basic

namespace DataPipeline

open Document

namespace PluginRef

def toJson (p : PluginRef) : Json :=
  .obj (("name", .string p.name) :: (p.config.map fun c => ("config", .object c)).toList)

def shape : Shape PluginRef where
  name := "struct PluginRef"
  fields := ["name", "config"]
  optional name := name = "config"
  start := ⟨"", none⟩
  put p name r d :=
    if name = "name" then do .ok { p with name := ← Reading.readText "a string" r d }
    else do .ok { p with config := ← Reading.readOption Reading.readMap r d }

def read (r : Reading) (d : Doc) : Read PluginRef := shape.read r d

end PluginRef

namespace Schema

mutual

def toJson : Schema → Json
  | ⟨component, referenceId, library, config, children, child, generator, datajet, stage⟩ =>
    .obj
      ((component.map fun c => ("component", .string c)).toList ++
      (referenceId.map fun i => ("referenceId", .string i)).toList ++
      (match library with
        | [] => []
        | s :: rest => [("library", .array (toJson s :: toJsonList rest))]) ++
      (config.map fun c => ("config", c)).toList ++
      (match children with
        | [] => []
        | s :: rest => [("children", .array (toJson s :: toJsonList rest))]) ++
      toJsonChild child ++
      (generator.map fun p => ("generator", p.toJson)).toList ++
      (datajet.map fun p => ("datajet", p.toJson)).toList ++
      (stage.map fun s => ("stage", s)).toList)

def toJsonList : List Schema → List Json
  | [] => []
  | s :: rest => toJson s :: toJsonList rest

def toJsonChild : Option Schema → List (String × Json)
  | none => []
  | some s => [("child", toJson s)]

end

/-- The shape of a schema, given how the schemas inside it are read. -/
def shape (read : Reading → Doc → Read Schema) : Shape Schema where
  name := "struct Schema"
  fields := ["component", "referenceId", "library", "config", "children", "child", "generator",
    "datajet", "stage"]
  optional _ := true
  start := {}
  put s name r d := do
    match name with
    | "component" =>
      .ok { s with component := ← Reading.readOption (Reading.readText "a string") r d }
    | "referenceId" =>
      .ok { s with referenceId := ← Reading.readOption (Reading.readText "a string") r d }
    | "library" => .ok { s with library := ← r.readList read d }
    | "config" => .ok { s with config := ← Reading.readOption Reading.readJson r d }
    | "children" => .ok { s with children := ← r.readList read d }
    | "child" => .ok { s with child := ← Reading.readOption read r d }
    | "generator" => .ok { s with generator := ← Reading.readOption PluginRef.read r d }
    | "datajet" => .ok { s with datajet := ← Reading.readOption PluginRef.read r d }
    | _ => .ok { s with stage := ← Reading.readOption Reading.readJson r d }

/-- Reads a schema that nests fewer than the given number of schemas. -/
def readWithin : Nat → Reading → Doc → Read Schema
  | 0, r, d => r.fail .tooDeep d.inside
  | n + 1, r, d => (shape (readWithin n)).read r d

/-- Reads a schema; every schema inside it enters a container, so their depth bounds it. -/
def read (r : Reading) (d : Doc) : Read Schema := readWithin (r.depth + 1) r d

def ofJson (v : Json) : Read Schema := readJsonValue read v

def ofJsonText (text : String) : Read Schema := readJsonText read text

end Schema

end DataPipeline
