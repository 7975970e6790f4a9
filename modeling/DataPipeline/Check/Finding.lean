import DataPipeline.BuildError
import DataPipeline.Json.Printer
import DataPipeline.NodePath

namespace DataPipeline

inductive Problem where
  | unresolved (error : BuildError)
  | entryWithoutReference (place : NodePath)
  | repeatedReference (place : NodePath) (id : String)
  | plugin (place : NodePath) (error : BuildError)
  | undeclaredReference (place : NodePath) (kind : PluginKind) (name id : String)
  | referenceNotText (place : NodePath) (kind : PluginKind) (name : String) (value : Json)
  deriving Inhabited, BEq, Repr

/-- The setting by which a plugin names a library entry. -/
def referenceKey : String := "referenceId"

namespace Problem

def message : Problem → String
  | unresolved e => e.message
  | entryWithoutReference place => place.text ++ ": library entries require a 'referenceId'"
  | repeatedReference place id => place.text ++ ": duplicate library referenceId '" ++ id ++ "'"
  | plugin place e => place.text ++ ": " ++ e.message
  | undeclaredReference place kind name id =>
    place.text ++ ": " ++ kind.name ++ " '" ++ name ++ "' references '" ++ id ++
      "', which is not declared in an enclosing library"
  | referenceNotText place kind name value =>
    place.text ++ ": " ++ kind.name ++ " '" ++ name ++ "' has a non-string '" ++ referenceKey ++
      "': " ++ value.compact

end Problem

inductive Doubt where
  | shadowed (place : NodePath) (id : String)
  | idle (place : NodePath)
  | unusable (place : NodePath)
  deriving DecidableEq, Inhabited, Repr

namespace Doubt

def message : Doubt → String
  | shadowed place id =>
    place.text ++ ": referenceId '" ++ id ++ "' shadows an entry from an enclosing scope"
  | idle place => place.text ++ ": synchronizer has no children and will do nothing"
  | unusable place =>
    place.text ++ ": generator component without a referenceId cannot be consumed"

end Doubt

/-- Problems and doubts, each in the order in which they were found. -/
structure Findings where
  problems : List Problem := []
  doubts : List Doubt := []
  deriving Inhabited, BEq, Repr

namespace Findings

def none : Findings := {}

def problem (p : Problem) : Findings := { problems := [p] }

def doubt (d : Doubt) : Findings := { doubts := [d] }

/-- The findings of one place after those of another. -/
def append (f g : Findings) : Findings := ⟨f.problems ++ g.problems, f.doubts ++ g.doubts⟩

instance : Append Findings := ⟨append⟩

/-- Doubts keep nothing from being built. -/
def isOk (f : Findings) : Bool := f.problems.isEmpty

end Findings

end DataPipeline
