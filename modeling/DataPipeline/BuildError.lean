import DataPipeline.Document.Fault
import DataPipeline.Kind

namespace DataPipeline

/-- An error and what it was caused by, outermost first. -/
structure Chain where
  message : String
  causes : List String
  deriving DecidableEq, Inhabited, Repr

namespace Chain

def of (message : String) : Chain := ⟨message, []⟩

/-- The error seen as the cause of another. -/
def under (c : Chain) (message : String) : Chain := ⟨message, c.message :: c.causes⟩

def messages (c : Chain) : List String := c.message :: c.causes

def text (c : Chain) : String := ": ".intercalate c.messages

end Chain

/-- What is wrong with the shape of a node. -/
inductive Defect where
  | stageWithoutGenerator
  | stageWithoutDatajet
  | wrapWithoutChild
  | wrapWithoutWrapper
  | generatorWithoutPlugin
  | zeroConcurrency
  | entryWithoutReference
  | field (name : String) (fault : Document.Fault)
  | wrapConfig (fault : Document.Fault)
  deriving DecidableEq, Inhabited, Repr

def Defect.message : Defect → String
  | stageWithoutGenerator => "stage requires 'generator.name'"
  | stageWithoutDatajet => "stage requires 'datajet.name'"
  | wrapWithoutChild => "wrap requires a 'child'"
  | wrapWithoutWrapper => "wrap requires 'config.wrapper.name'"
  | generatorWithoutPlugin => "generator component requires 'generator.name'"
  | zeroConcurrency => "'config.maxConcurrency' must be at least 1"
  | entryWithoutReference => "library entries require a 'referenceId'"
  | field name fault => "invalid '" ++ name ++ "': " ++ fault.message
  | wrapConfig fault => "invalid wrap config: " ++ fault.message

inductive BuildError where
  | unsupportedComponent (component : String)
  | pluginNotFound (kind : PluginKind) (name : String) (available : List String)
  | duplicatePlugin (kind : PluginKind) (name : String)
  | malformedSchema (path : String) (defect : Defect)
  | duplicateReference (referenceId : String) (path : String)
  | referenceNotFound (referenceId : String)
  | pluginFactory (kind : PluginKind) (name : String) (source : Chain)
  deriving DecidableEq, Inhabited, Repr

namespace BuildError

def message : BuildError → String
  | unsupportedComponent component =>
    "Unsupported pipeline component in schema: '" ++ component ++ "'"
  | pluginNotFound kind name available =>
    "Unknown " ++ kind.name ++ " '" ++ name ++ "'. Available " ++ kind.name ++ "s: " ++
      ", ".intercalate available
  | duplicatePlugin kind name => "Duplicate " ++ kind.name ++ " registration: '" ++ name ++ "'"
  | malformedSchema path defect => "Malformed schema at " ++ path ++ ": " ++ defect.message
  | duplicateReference id path => "Duplicate library referenceId '" ++ id ++ "' at " ++ path
  | referenceNotFound id => "Library reference '" ++ id ++ "' is not visible in this scope"
  | pluginFactory kind name source =>
    "Failed to create " ++ kind.name ++ " '" ++ name ++ "': " ++ source.text

/-- The error with what caused it: a factory's own error is a cause. -/
def chain : BuildError → Chain
  | pluginFactory kind name source => source.under (pluginFactory kind name source).message
  | e => .of e.message

end BuildError

end DataPipeline
