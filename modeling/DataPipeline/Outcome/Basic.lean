import DataPipeline.Kind

namespace DataPipeline

/-- The kind and the name of an executed node. -/
structure Descriptor where
  kind : ComponentKind
  name : String
  deriving DecidableEq, Inhabited, Repr

/-- What a validator says: the data may flow, it may not, or it is too early to tell. -/
inductive Verdict where
  | passed
  | failed (reason : String)
  | pending (name : String)
  deriving DecidableEq, Inhabited, Repr

/-- The result of one node. It is not final while validators are pending. -/
structure Outcome where
  stage : Descriptor
  isValidationSuccess : Bool := true
  isExecutionSuccess : Bool := true
  pendingValidators : List String := []
  children : List Outcome := []
  errors : List String := []
  deriving Inhabited, BEq, Repr

namespace Outcome

def isSuccess (o : Outcome) : Bool := o.isValidationSuccess && o.isExecutionSuccess

def isFinal (o : Outcome) : Bool := o.pendingValidators.isEmpty

/-- The conjunction of the children's results; their pending validators are its own. -/
def aggregate (stage : Descriptor) (children : List Outcome) : Outcome where
  stage
  isValidationSuccess := children.all (·.isValidationSuccess)
  isExecutionSuccess := children.all (·.isExecutionSuccess)
  pendingValidators := children.flatMap (·.pendingValidators)
  children

def fail (o : Outcome) (error : String) : Outcome :=
  { o with isExecutionSuccess := false, errors := o.errors ++ [error] }

def recordVerdict (o : Outcome) (validator : String) : Verdict → Outcome
  | .passed => o
  | .failed reason =>
    { o with
      isValidationSuccess := false
      errors := o.errors ++ [validator ++ " validation failed: " ++ reason] }
  | .pending name => { o with pendingValidators := o.pendingValidators ++ [name] }

end Outcome

end DataPipeline
