import DataPipeline.Plugin.Datajets
import DataPipeline.Plugin.Generators
import DataPipeline.Plugin.Wrappers

namespace DataPipeline

def Registry.builtin : Registry where
  generators :=
    { kind := .generator
      templates := [
        ⟨"increment",
          [("batchCount", .nat 1), ("batchSize", .nat 10), ("key", .string "value")],
          incrementFactory⟩,
        ⟨"static", [("records", .array []), ("repeat", .nat 1)], staticFactory⟩,
        ⟨"library", [], libraryFactory⟩] }
  wrappers :=
    { kind := .wrapper
      templates := [
        ⟨"passthrough", [], fun _ _ => .ok passthroughWrapper⟩,
        ⟨"repeat", [("times", .nat 2)], repeatFactory⟩] }
  datajets :=
    { kind := .datajet
      templates := [
        ⟨"stdout", [], stdoutFactory⟩,
        ⟨"file", [("path", .string "output.jsonl")], fileFactory⟩,
        ⟨"discard", [], fun _ _ => .ok discardDatajet⟩] }

end DataPipeline
