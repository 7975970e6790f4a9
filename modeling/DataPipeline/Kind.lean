namespace DataPipeline

inductive ComponentKind where
  | stage
  | synchronizer
  | wrap
  | generator
  deriving DecidableEq, Inhabited, Repr

namespace ComponentKind

def all : List ComponentKind := [stage, synchronizer, wrap, generator]

def name : ComponentKind → String
  | stage => "stage"
  | synchronizer => "synchronizer"
  | wrap => "wrap"
  | generator => "generator"

def ofName? (name : String) : Option ComponentKind := all.find? (·.name = name)

/-- The name as a type of this library is shown to a developer. -/
def title : ComponentKind → String
  | stage => "Stage"
  | synchronizer => "Synchronizer"
  | wrap => "Wrap"
  | generator => "Generator"

theorem ofName?_name (k : ComponentKind) : ofName? k.name = some k := by
  cases k <;> rfl

end ComponentKind

inductive PluginKind where
  | generator
  | wrapper
  | datajet
  deriving DecidableEq, Inhabited, Repr

namespace PluginKind

def all : List PluginKind := [generator, wrapper, datajet]

def name : PluginKind → String
  | generator => "generator"
  | wrapper => "wrapper"
  | datajet => "datajet"

end PluginKind

end DataPipeline
