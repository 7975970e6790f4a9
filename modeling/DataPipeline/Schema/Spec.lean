import DataPipeline.BuildError
import DataPipeline.Schema.Codec

namespace DataPipeline

open Document

/-- A limit on the batches of a stage, and whether it goes on after a failed one. -/
structure StageSettings where
  maxBatches : Option Nat := none
  continueOnError : Bool := false
  deriving DecidableEq, Inhabited, Repr

/-- How many children of a synchronizer may run at once. -/
structure FanOutSettings where
  maxConcurrency : Option Nat := none
  deriving DecidableEq, Inhabited, Repr

def readUnsigned64 : Reading → Doc → Read Nat := Reading.readNat (Word.limit 64) "u64"

namespace StageSettings

def shape : Shape StageSettings where
  name := "struct StageConfig"
  fields := ["maxBatches", "continueOnError"]
  optional _ := true
  start := {}
  put s name r d :=
    if name = "maxBatches" then do
      .ok { s with maxBatches := ← Reading.readOption readUnsigned64 r d }
    else do .ok { s with continueOnError := ← Reading.readBool r d }

def toJson (s : StageSettings) : Json :=
  .obj [("maxBatches", (s.maxBatches.map Json.nat).getD .null),
    ("continueOnError", .bool s.continueOnError)]

end StageSettings

namespace FanOutSettings

def shape : Shape FanOutSettings where
  name := "struct SynchronizerConfig"
  fields := ["maxConcurrency"]
  optional _ := true
  start := {}
  put s _ r d := do
    let readLimit := Reading.readNat (Word.limit 64) "usize"
    .ok { s with maxConcurrency := ← Reading.readOption readLimit r d }

def toJson (s : FanOutSettings) : Json :=
  .obj [("maxConcurrency", (s.maxConcurrency.map Json.nat).getD .null)]

end FanOutSettings

/-- The settings of a wrap node: the wrapper, which must be given. -/
def wrapShape : Shape (Option PluginRef) where
  name := "struct WrapConfig"
  fields := ["wrapper"]
  optional _ := false
  start := none
  put _ _ r d := some <$> PluginRef.read r d

inductive Spec where
  | stage (generator datajet : PluginRef) (settings : StageSettings)
  | synchronizer (children : List Schema) (settings : FanOutSettings)
  | wrap (wrapper : PluginRef) (child : Schema)
  | generator (generator : PluginRef)

def Spec.kind : Spec → ComponentKind
  | stage .. => .stage
  | synchronizer .. => .synchronizer
  | wrap .. => .wrap
  | generator .. => .generator

namespace Schema

/-- The node's kind; a node that names none is a stage. -/
def kind (s : Schema) : Except BuildError ComponentKind :=
  match s.component with
  | none => .ok .stage
  | some name =>
    match ComponentKind.ofName? name with
    | some k => .ok k
    | none => .error (.unsupportedComponent name)

/-- The value of an optional field; one that is absent or null has the shape's starting
value. -/
def settings {α : Type} (shape : Shape α) (path field : String) :
    Option Json → Except BuildError α
  | none | some .null => .ok shape.start
  | some v =>
    (readJsonValue shape.read v).mapError fun f => .malformedSchema path (.field field f.fault)

/-- The given value, or the defect of a node that lacks it. -/
def require {α : Type} (path : String) (defect : Defect) (v : Option α) : Except BuildError α :=
  match v with
  | some a => .ok a
  | none => .error (.malformedSchema path defect)

/-- Checks the node's kind and the fields its kind needs. -/
def resolve (s : Schema) (path : String) : Except BuildError Spec := do
  match ← s.kind with
  | .stage =>
    let generator ← require path .stageWithoutGenerator s.generator
    let datajet ← require path .stageWithoutDatajet s.datajet
    let settings ← settings StageSettings.shape path "stage" s.stage
    .ok (.stage generator datajet settings)
  | .synchronizer =>
    let settings ← settings FanOutSettings.shape path "config" s.config
    if settings.maxConcurrency = some 0 then .error (.malformedSchema path .zeroConcurrency)
    else .ok (.synchronizer s.children settings)
  | .wrap =>
    let child ← require path .wrapWithoutChild s.child
    let config ← require path .wrapWithoutWrapper s.config
    let wrapper? ← (readJsonValue wrapShape.read config).mapError fun f =>
      .malformedSchema path (.wrapConfig f.fault)
    let wrapper ← require path .wrapWithoutWrapper wrapper?
    .ok (.wrap wrapper child)
  | .generator =>
    let generator ← require path .generatorWithoutPlugin s.generator
    .ok (.generator generator)

end Schema

end DataPipeline
