import DataPipeline.Disk.Basic
import DataPipeline.Schema.Spec
import DataPipeline.Yaml.Node

namespace DataPipeline

open Document

inductive LoadError where
  | unreadable (path : String) (error : FileError)
  | malformed (path : String) (format : Format) (failure : Failure)
  deriving DecidableEq, Inhabited, Repr

/-- The error above its cause. -/
def LoadError.chain : LoadError → Chain
  | unreadable path e => ⟨"Failed to read schema file: " ++ path, [e.message]⟩
  | malformed path format f =>
    ⟨"Failed to parse schema " ++ (if format = .json then "JSON" else "YAML") ++ ": " ++ path,
      [f.message format]⟩

/-- The format of the file at a path: JSON if its extension says so, in letters of either
case. -/
def formatOf (path : String) : Format :=
  match FilePath.extension? path with
  | some ext => if ext.toList.map Char.toLower = "json".toList then .json else .yaml
  | none => .yaml

namespace Schema

def ofYamlText (text : String) : Read Schema := readYamlText (shape read).fields read text

/-- The schema in the file at a path, seen from the current directory. -/
def load (disk : Disk) (cwd path : String) : Except LoadError Schema := do
  let text ← (disk.readText (FilePath.seenFrom cwd path)).mapError (.unreadable path)
  match formatOf path with
  | .json => (ofJsonText text).mapError (.malformed path .json)
  | _ => (ofYamlText text).mapError (.malformed path .yaml)

end Schema

end DataPipeline
