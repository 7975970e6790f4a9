import DataPipeline.Json.Basic

namespace DataPipeline

/-- A plugin by name, and the keys that override its defaults. -/
structure PluginRef where
  name : String
  config : Option Fields
  deriving Inhabited, BEq, Repr

structure Schema where
  component : Option String := none
  referenceId : Option String := none
  library : List Schema := []
  config : Option Json := none
  children : List Schema := []
  child : Option Schema := none
  generator : Option PluginRef := none
  datajet : Option PluginRef := none
  stage : Option Json := none
  deriving Inhabited, BEq, Repr

end DataPipeline
