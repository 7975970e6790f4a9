import DataPipeline.Document.JsonText
import DataPipeline.Outcome.Basic

namespace DataPipeline

open Document

namespace ComponentKind

/-- The kind named by a text. -/
def ofVariant (r : Reading) (name : String) (place : Mark) : Read ComponentKind :=
  match ofName? name with
  | some k => .ok k
  | none => r.fail (.unknownVariant name (all.map ComponentKind.name)) place

/-- The null after the name of a kind that is written as a map. -/
def readUnit (r : Reading) : Doc → Read Unit
  | .scalar s span => do
    match ← r.located s.found with
    | .null => .ok ()
    | found => r.fail (.wrongType found "unit") span.place
  | d => r.refuse "unit" d

/-- A kind as a map of one entry, its name and null. -/
def readEntry (r : Reading) (entries : List Entry) (ending : Ending) (span : Span) :
    Read ComponentKind := do
  match entries with
  | [] =>
    r.finish ending
    if r.format = .value then r.fail (.wrongValue .map "map with a single key") span.place
    else r.fail (.malformed .expectedValue) span.stop
  | .mk key _ value :: rest =>
    if r.format = .value ∧ !rest.isEmpty then
      r.fail (.wrongValue .map "map with a single key") span.place
    else
      let name ← Reading.readText "variant identifier" r key
      let kind ← ofVariant r name key.stop
      readUnit r value
      if !rest.isEmpty then r.fail (.malformed .expectedValue) value.stop
      else
        r.finish ending
        .ok kind

/-- A kind as its name or as a map. -/
def read (r : Reading) (d : Doc) : Read ComponentKind :=
  match d with
  | .mapping entries ending _ span => do
    let r ← r.enter span
    readEntry r entries ending span
  | .scalar s span => do
    match r.format, s.found with
    | _, .ok (.string name) => ofVariant r name span.stop
    | .value, .ok found => r.fail (.wrongType found "string or map") span.place
    | _, .error e => r.fail e.fault e.place
    | _, .ok _ => r.fail (.malformed .expectedValue) span.inside
  | .sequence _ _ _ span =>
    if r.format = .value then r.fail (.wrongType .sequence "string or map") span.place
    else r.fail (.malformed .expectedValue) span.inside
  | d => r.refuse "string or map" d

end ComponentKind

namespace Descriptor

def shape : Shape Descriptor where
  name := "struct StageDescriptor"
  fields := ["kind", "name"]
  optional _ := false
  start := ⟨.stage, ""⟩
  put x name r d :=
    if name = "kind" then do .ok { x with kind := ← ComponentKind.read r d }
    else do .ok { x with name := ← Reading.readText "a string" r d }

def toJson (x : Descriptor) : Json :=
  .object [("kind", .string x.kind.name), ("name", .string x.name)]

end Descriptor

namespace Outcome

mutual

def toJson : Outcome → Json
  | ⟨stage, isValidationSuccess, isExecutionSuccess, pendingValidators, children, errors⟩ =>
    .object ([("stage", stage.toJson), ("isValidationSuccess", .bool isValidationSuccess),
      ("isExecutionSuccess", .bool isExecutionSuccess),
      ("pendingValidators", .array (pendingValidators.map .string)),
      ("children", .array (toJsonList children))] ++
      if errors.isEmpty then [] else [("errors", .array (errors.map .string))])

def toJsonList : List Outcome → List Json
  | [] => []
  | o :: rest => toJson o :: toJsonList rest

end

/-- The shape of an outcome, given how the outcomes inside it are read. -/
def shape (read : Reading → Doc → Read Outcome) : Shape Outcome where
  name := "struct ExecutionResult"
  fields := ["stage", "isValidationSuccess", "isExecutionSuccess",
    "pendingValidators", "children", "errors"]
  optional name := name = "errors"
  start := { stage := ⟨.stage, ""⟩ }
  put o name r d := do
    match name with
    | "stage" => .ok { o with stage := ← Descriptor.shape.read r d }
    | "isValidationSuccess" => .ok { o with isValidationSuccess := ← r.readBool d }
    | "isExecutionSuccess" => .ok { o with isExecutionSuccess := ← r.readBool d }
    | "pendingValidators" =>
      .ok { o with pendingValidators := ← r.readList (Reading.readText "a string") d }
    | "children" => .ok { o with children := ← r.readList read d }
    | _ => .ok { o with errors := ← r.readList (Reading.readText "a string") d }

/-- Reads an outcome that nests fewer than the given number of outcomes. -/
def readWithin : Nat → Reading → Doc → Read Outcome
  | 0, r, d => r.fail .tooDeep d.inside
  | n + 1, r, d => (shape (readWithin n)).read r d

def read (r : Reading) (d : Doc) : Read Outcome := readWithin (r.depth + 1) r d

end Outcome

end DataPipeline
