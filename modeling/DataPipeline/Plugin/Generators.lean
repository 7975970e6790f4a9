import DataPipeline.Plugin.Config

namespace DataPipeline

open Document

structure IncrementConfig where
  batchSize : Nat := 0
  batchCount : Nat := 0
  key : String := ""
  deriving DecidableEq, Inhabited, Repr

namespace IncrementConfig

def shape : Shape IncrementConfig where
  name := "struct IncrementConfig"
  fields := ["batchSize", "batchCount", "key"]
  optional _ := false
  start := {}
  put c name r d := do
    match name with
    | "batchSize" => .ok { c with batchSize := ← readUnsigned64 r d }
    | "batchCount" => .ok { c with batchCount := ← readUnsigned64 r d }
    | _ => .ok { c with key := ← Reading.readText "a string" r d }

/-- The records numbered from a start on. -/
def records (c : IncrementConfig) (start : Nat) : Batch :=
  (List.range c.batchSize).map fun i => .object [(c.key, .nat (start + i))]

end IncrementConfig

/-- Records that count up from zero across batches. -/
def incrementGenerator (c : IncrementConfig) : Generator where
  name := "increment"
  batches _ := .ofFunction c.batchCount fun i => c.records (i * c.batchSize)

def incrementFactory : Factory Generator := fun config _ => do
  let c ← ofConfig IncrementConfig.shape config
  if c.batchSize = 0 then refuse "increment generator requires 'batchSize' of at least 1"
  else .ok (incrementGenerator c)

structure StaticConfig where
  records : List Json := []
  times : Nat := 0
  deriving Inhabited, Repr

def StaticConfig.shape : Shape StaticConfig where
  name := "struct StaticConfig"
  fields := ["records", "repeat"]
  optional _ := false
  start := {}
  put c name r d :=
    if name = "records" then do .ok { c with records := ← r.readList Reading.readJson d }
    else do .ok { c with times := ← readUnsigned64 r d }

/-- The given records as one batch, a number of times. -/
def staticGenerator (c : StaticConfig) : Generator where
  name := "static"
  validate _ :=
    .done <|
      if c.records.isEmpty then .failed "static generator has no records configured"
        else .passed
  batches _ := .ofFunction c.times fun _ => c.records

def staticFactory : Factory Generator := fun config _ => do
  .ok (staticGenerator (← ofConfig StaticConfig.shape config))

/-- The id of a library entry. -/
def referenceShape : Shape String where
  name := "struct LibraryConfig"
  fields := ["referenceId"]
  optional _ := false
  start := ""
  put _ _ r d := Reading.readText "a string" r d

def unpublished (id : String) : String := "'" ++ id ++ "' publishes no generator"

/-- The generator that a library entry publishes, under another name. The entry is asked for it
at each use. -/
def entryGenerator (id : String) (entry : Node) : Generator where
  name := "library"
  validate ctx :=
    match entry.generator? with
    | some g => g.validate ctx
    | none => .done (.failed (unpublished id))
  batches ctx :=
    match entry.generator? with
    | some g => g.batches ctx
    | none => ⟨1, fun _ => .done (.error (.of (unpublished id)))⟩

/-- The generator of a library entry. An entry that publishes none is refused. -/
def libraryFactory : Factory Generator := fun config context => do
  let id ← ofConfig referenceShape config
  let node ← (context.resolve id).mapError Refusal.build
  match node.generator? with
  | some _ => .ok (entryGenerator id node)
  | none =>
    refuse ("library entry '" ++ id ++ "' is a " ++ node.kind.name ++
      " and publishes no generator")

end DataPipeline
