import DataPipeline.Node.Basic
import DataPipeline.Text.Sorted

namespace DataPipeline

/-- Built nodes under their reference ids; the one published last comes first and hides the
others. -/
structure Library where
  entries : List (String × Node) := []
  deriving Inhabited

namespace Library

def get? (l : Library) (id : String) : Option Node := (l.entries.find? (·.1 = id)).map (·.2)

def contains (l : Library) (id : String) : Bool := l.entries.any (·.1 = id)

/-- The ids that can be seen, in ascending order. -/
def ids (l : Library) : List String := Text.sorted (l.entries.map (·.1))

def size (l : Library) : Nat := l.ids.length

/-- The library with other entries laid over it. -/
def overlay (l : Library) (entries : List (String × Node)) : Library :=
  ⟨entries.reverse ++ l.entries⟩

def debugText (l : Library) : String := Text.quotedSet l.ids

end Library

structure BuildContext where
  dataRoot : String
  workspaceRoot : String
  library : Library := {}
  rootSchema : Option Schema := none
  localSchema : Option Schema := none
  deriving Inhabited

namespace BuildContext

def dataRootVariable : String := "DATAJET_DATA_ROOT"

def workspaceRootVariable : String := "DATAJET_WORKSPACE_ROOT"

/-- A directory named by a variable, or else a default one, seen from the current directory. -/
def rootFrom (cwd : String) (environment : String → Option String) (name default : String) :
    String :=
  FilePath.absolute cwd (((environment name).filter (· ≠ "")).getD default)

/-- The directories that the environment names. -/
def ofEnvironment (cwd : String) (environment : String → Option String) : BuildContext where
  dataRoot := rootFrom cwd environment dataRootVariable "./data"
  workspaceRoot := rootFrom cwd environment workspaceRootVariable "./workspace"

/-- Publishes a built node. -/
def withEntry (c : BuildContext) (id : String) (node : Node) : BuildContext :=
  { c with library := c.library.overlay [(id, node)] }

def resolve (c : BuildContext) (id : String) : Except BuildError Node :=
  match c.library.get? id with
  | some node => .ok node
  | none => .error (.referenceNotFound id)

/-- The schema of a whole build; one that is there already stays. -/
def withRoot (c : BuildContext) (schema : Schema) : BuildContext :=
  { c with rootSchema := some (c.rootSchema.getD schema) }

/-- The context of a node and of what it holds: its own library over the one it was given. -/
def derive (c : BuildContext) (node : Schema) (entries : List (String × Node)) : BuildContext :=
  { c with library := c.library.overlay entries, localSchema := some node }

end BuildContext

end DataPipeline
