import DataPipeline.Document.JsonText
import DataPipeline.Plugin.Registry

namespace DataPipeline

open Document

/-- Reads settings of a given shape; a fault is the factory's own error. -/
def ofConfig {α : Type} (shape : Shape α) (config : Fields) : Except Refusal α :=
  (readJsonValue shape.read (.object config)).mapError fun f =>
    .own ((Chain.of f.fault.message).under "Invalid plugin configuration")

def refuse {α : Type} (message : String) : Except Refusal α := .error (.own (.of message))

end DataPipeline
