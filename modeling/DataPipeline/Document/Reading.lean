import DataPipeline.Document.Basic

namespace DataPipeline.Document

/-- What the readers of one document share: its format, its anchored nodes, how many more
containers they may enter, the steps taken so far, and the place of the container entered
last. -/
structure Reading where
  format : Format
  anchors : Nat → Option Doc
  depth : Nat
  trail : Trail := []
  home : Mark := default

abbrev Read (α : Type) := Except Failure α

namespace Reading

variable {α : Type}

def fail (r : Reading) (fault : Fault) (place : Mark) : Read α := .error ⟨fault, place, r.trail⟩

def located (r : Reading) : Except Located α → Read α
  | .ok a => .ok a
  | .error e => r.fail e.fault e.place

def step (r : Reading) (s : Step) : Reading := { r with trail := s :: r.trail }

/-- The node itself, or the one an alias stands for. -/
def target (r : Reading) : Doc → Reading × Doc
  | .alias anchor => (r.step .alias, (r.anchors anchor).getD (.alias anchor))
  | d => (r, d)

def skip (r : Reading) (d : Doc) : Read Unit :=
  match d.skipped with
  | none => .ok ()
  | some e => r.fail e.fault e.place

/-- Refuses a node where something else is wanted. -/
def refuse (r : Reading) (expected : String) : Doc → Read α
  | .scalar s span => do
    let found ← r.located s.found
    r.fail (.wrongType found expected) span.place
  | .sequence _ _ _ span => r.fail (.wrongType .sequence expected) span.place
  | .mapping _ _ _ span => r.fail (.wrongType .map expected) span.place
  | .broken e _ _ => r.fail e.fault e.place
  | .alias _ => r.fail .unreadable default

def enter (r : Reading) (span : Span) : Read Reading :=
  match r.depth with
  | 0 => r.fail .tooDeep span.inside
  | depth + 1 => .ok { r with depth, home := span.place }

/-- What follows the items: nothing, or the fault that cut them off. -/
def finish (r : Reading) : Ending → Read Unit
  | .closed => .ok ()
  | .cut e _ => r.fail e.fault e.place

def scalarText (r : Reading) (expected : String) (s : Scalar) (span : Span) : Read String :=
  match s.text? with
  | some t => .ok t
  | none => do
    match ← r.located s.found with
    | .string t => .ok t
    | found => r.fail (.wrongType found expected) span.place

def readText (expected : String) (r : Reading) (d : Doc) : Read String :=
  match r.target d with
  | (r, .scalar s span) => r.scalarText expected s span
  | (r, d) => r.refuse expected d

def readBool (r : Reading) (d : Doc) : Read Bool :=
  match r.target d with
  | (r, .scalar s span) => do
    match ← r.located s.found with
    | .bool b => .ok b
    | found => r.fail (.wrongType found "a boolean") span.place
  | (r, d) => r.refuse "a boolean" d

/-- A whole number from zero to below `limit`. -/
def readNat (limit : Nat) (expected : String) (r : Reading) (d : Doc) : Read Nat :=
  match r.target d with
  | (r, .scalar s span) => do
    match ← r.located s.found with
    | .int n =>
      if 0 ≤ n ∧ n < limit then .ok n.toNat
      else r.fail (.wrongValue (.int n) expected) span.place
    | found => r.fail (.wrongType found expected) span.place
  | (r, d) => r.refuse expected d

/-- Whether a scalar stands for nothing; if it should but does not, its container is at
fault. -/
def isAbsent (r : Reading) (s : Scalar) : Read Bool :=
  match s.absent with
  | .ok b => .ok b
  | .error e => .error ⟨e.fault, r.home, (r.trail.dropWhile (· = .alias)).tail⟩

/-- None where the node stands for nothing, else what `read` makes of it. -/
def readOption (read : Reading → Doc → Read α) (r : Reading) (d : Doc) : Read (Option α) :=
  match r.target d with
  | (r, .scalar s span) => do
    if ← r.isAbsent s then .ok none else some <$> read r (.scalar s span)
  | (r, d) => some <$> read r d

/-- Reads the items from the given position on. -/
def readItems (read : Reading → Doc → Read α) (r : Reading) : Nat → List Doc → Read (List α)
  | _, [] => .ok []
  | n, d :: rest => do
    let a ← read (r.step (.index n)) d
    let as ← readItems read r (n + 1) rest
    .ok (a :: as)

def readList (r : Reading) (read : Reading → Doc → Read α) (d : Doc) : Read (List α) :=
  match r.target d with
  | (r, .sequence items ending _ span) => do
    let inner ← r.enter span
    let as ← readItems read inner 0 items
    r.finish ending
    .ok as
  | (r, .scalar s span) => if s.hollow then .ok [] else r.refuse "a sequence" (.scalar s span)
  | (r, d) => r.refuse "a sequence" d

/-- The step to a value, named by its key where the key is a scalar. -/
def keyStep (r : Reading) : Doc → Step
  | .scalar s span =>
    match r.scalarText "" s span with
    | .ok name => .key name
    | .error _ => .unnamed
  | _ => .unnamed

def scalarJson (r : Reading) (s : Scalar) (span : Span) : Read Json := do
  match ← r.located s.found with
  | .null | .unit => .ok .null
  | .bool b => .ok (.bool b)
  | .int n => if Number.fits n then .ok (.number (.int n)) else r.fail .numberTooWide span.place
  | .double x _ => .ok (if x.isFinite then .number (.double x) else .null)
  | .string t => .ok (.string t)
  | found => r.fail (.wrongType found "any valid JSON value") span.place

/-- Reads the fields of a map in document order; of two values of one key the last wins. -/
def readFields (read : Reading → Doc → Read Json) (r : Reading) :
    String → Fields → List Entry → Read Fields
  | _, acc, [] => .ok acc
  | expected, acc, .mk key _ value :: rest => do
    let name ← readText expected r key
    let v ← read (r.step (r.keyStep key)) value
    readFields read r "a string" (Fields.insert name v acc) rest

/-- A free-form value of at most `depth` nested containers. -/
def readJsonWithin : Nat → Reading → Doc → Read Json
  | depth, r, d =>
    match r.target d with
    | (r, .scalar s span) =>
      if s.custom then r.fail (.wrongType .enumeration "any valid JSON value") span.place
      else r.scalarJson s span
    | (r, .sequence items ending custom span) =>
      if custom then r.fail (.wrongType .enumeration "any valid JSON value") span.place
      else match depth with
        | 0 => r.fail .tooDeep span.inside
        | depth + 1 => do
          let vs ← readItems (readJsonWithin depth) r 0 items
          r.finish ending
          .ok (.array vs)
    | (r, .mapping entries ending custom span) =>
      if custom then r.fail (.wrongType .enumeration "any valid JSON value") span.place
      else match depth with
        | 0 => r.fail .tooDeep span.inside
        | depth + 1 => do
          let fields ← readFields (readJsonWithin depth) r "a string key" [] entries
          r.finish ending
          .ok (.object fields)
    | (r, d) => r.refuse "any valid JSON value" d

def readJson (r : Reading) (d : Doc) : Read Json := readJsonWithin r.depth r d

/-- A free-form map. -/
def readMap (r : Reading) (d : Doc) : Read Fields :=
  match r.target d with
  | (r, .mapping entries ending _ span) => do
    let inner ← r.enter span
    let fields ← readFields readJson inner "a string" [] entries
    r.finish ending
    .ok fields
  | (r, .scalar s span) => if s.hollow then .ok [] else r.refuse "a map" (.scalar s span)
  | (r, d) => r.refuse "a map" d

end Reading

/-- A structure with named fields: `put` reads one field into the value built so far, and the
fields that are not `optional` must be given. -/
structure Shape (α : Type) where
  name : String
  fields : List String
  optional : String → Bool
  start : α
  put : α → String → Reading → Doc → Read α

namespace Shape

variable {α : Type}

/-- Reads named fields in document order, skipping those the shape does not have. -/
def readEntries (shape : Shape α) (r : Reading) :
    α → List String → List Entry → Read (α × List String)
  | a, seen, [] => .ok (a, seen)
  | a, seen, .mk key place value :: rest => do
    let name ← Reading.readText "field identifier" r key
    let inner := r.step (r.keyStep key)
    if name ∈ shape.fields then
      if name ∈ seen then r.fail (.repeatedField name) place
      else
        let a ← shape.put a name inner value
        shape.readEntries r a (name :: seen) rest
    else
      inner.skip value
      shape.readEntries r a seen rest

/-- Reads fields by position and returns the items left over. Fields left over keep their
starting value where that is allowed. -/
def readPositions (shape : Shape α) (r : Reading) (ending : Ending) (stop : Mark) :
    α → List String → List Doc → Read (α × List Doc)
  | a, [], rest => .ok (a, rest)
  | a, name :: names, d :: rest => do
    let a ← shape.put a name r d
    shape.readPositions r ending stop a names rest
  | a, name :: names, [] => do
    r.finish ending
    if shape.optional name then shape.readPositions r ending stop a names []
    else
      let count := shape.fields.length
      r.fail (.wrongLength (count - (names.length + 1))
        (shape.name ++ " with " ++ toString count ++
          (if count = 1 then " element" else " elements")))
        stop

/-- After the last field by position nothing but the end is looked for. -/
def finishLast (r : Reading) : Ending → Read Unit
  | .closed => .ok ()
  | .cut ⟨.malformed .expectedListComma, place⟩ _ | .cut ⟨.malformed .eofInValue, place⟩ _ =>
    r.fail (.malformed .trailingCharacters) place
  | .cut e _ => r.fail e.fault e.place

/-- What follows the last field by position: nothing, or an item too many. -/
def finishPositions (r : Reading) (items : List Doc) (ending : Ending) : List Doc → Read Unit
  | [] => finishLast r ending
  | d :: _ =>
    match r.format with
    | .value => r.fail (.wrongLength items.length "fewer elements in array") default
    | _ => r.fail (.malformed .trailingCharacters) d.inside

/-- The first field that must be given and is not. -/
def missing? (shape : Shape α) (seen : List String) : Option String :=
  shape.fields.find? fun name => !shape.optional name && !seen.contains name

/-- Reads a structure from its fields by name or, where the format allows, by position. -/
def read (shape : Shape α) (r : Reading) (d : Doc) : Read α :=
  match r.target d with
  | (r, .mapping entries ending _ span) => do
    let inner ← r.enter span
    let (a, seen) ← shape.readEntries inner shape.start [] entries
    r.finish ending
    match shape.missing? seen with
    | some name => r.fail (.missingField name) span.stop
    | none => .ok a
  | (r, .sequence items ending custom span) =>
    match r.format with
    | .yaml => r.refuse shape.name (.sequence items ending custom span)
    | _ => do
      let inner ← r.enter span
      let (a, rest) ← shape.readPositions inner ending span.stop shape.start shape.fields items
      finishPositions r items ending rest
      .ok a
  | (r, .scalar s span) =>
    if s.hollow then
      match shape.missing? [] with
      | some name => r.fail (.missingField name) span.stop
      | none => .ok shape.start
    else r.refuse shape.name (.scalar s span)
  | (r, d) => r.refuse shape.name d

end Shape

end DataPipeline.Document
