import DataPipeline.Run.Settings

namespace DataPipeline.CommandLine

structure RunOptions where
  schema : String
  dataRoot : Option String := none
  workspaceRoot : Option String := none
  stageTimeoutMs : Option Nat := none
  printMetrics : Bool := false
  metricsJson : Option String := none
  metricsPrometheus : Option String := none
  resultJson : Option String := none
  deriving DecidableEq, Inhabited, Repr

inductive Command where
  | run (options : RunOptions)
  | validate (schema : String)
  | lint (patterns : List String)
  | lock (schema output : String)
  | listPlugins
  deriving DecidableEq, Inhabited, Repr

/-- The name of a command. -/
inductive CommandName where
  | run
  | validate
  | lint
  | lock
  | listPlugins
  deriving DecidableEq, Inhabited, Repr

def CommandName.all : List CommandName := [run, validate, lint, lock, listPlugins]

def CommandName.text : CommandName → String
  | run => "run"
  | validate => "validate"
  | lint => "lint"
  | lock => "lock"
  | listPlugins => "list-plugins"

def CommandName.ofText? (text : String) : Option CommandName := all.find? (·.text = text)

/-- What a value has to be. -/
inductive ValueKind where
  | path
  | number
  | text
  deriving DecidableEq, Inhabited, Repr

/-- A whole number of 64 bits in decimal digits, a plus sign allowed in front. -/
def number? (s : String) : Option Nat :=
  let cs := s.toList
  let digits := if cs.head? = some '+' then cs.tail else cs
  if digits.isEmpty || !digits.all Char.isDigit then none
  else
    let n := digits.foldl (fun n c => n * 10 + (c.toNat - 48)) 0
    if n < Word.limit 64 then some n else none

def ValueKind.accepts (s : String) : ValueKind → Bool
  | path => s ≠ ""
  | number => (number? s).isSome
  | text => true

/-- An option of a command; a switch takes no value. -/
structure OptionSpec where
  name : String
  value : Option ValueKind
  deriving DecidableEq, Inhabited, Repr

def CommandName.options : CommandName → List OptionSpec
  | run => [⟨"data-root", some .path⟩, ⟨"workspace-root", some .path⟩,
    ⟨"stage-timeout-ms", some .number⟩, ⟨"print-metrics", none⟩, ⟨"metrics-json", some .path⟩,
    ⟨"metrics-prometheus", some .path⟩, ⟨"result-json", some .path⟩]
  | _ => []

/-- The positional arguments of a command; the last is repeated where the flag says so. -/
def CommandName.positions : CommandName → List (String × ValueKind) × Bool
  | run | validate => ([("SCHEMA", .path)], false)
  | lint => ([("PATTERNS", .text)], true)
  | lock => ([("SCHEMA", .path), ("OUTPUT", .path)], false)
  | listPlugins => ([], false)

/-- The arguments read so far, the last one first. -/
structure Given where
  positional : List String := []
  options : List (String × String) := []
  deriving DecidableEq, Inhabited, Repr

def Given.get? (g : Given) (name : String) : Option String := g.options.lookup name

/-- What can be asked of the program in place of a command, and that it cannot be understood. -/
inductive Reply where
  | help (command : Option CommandName)
  | version
  | misuse
  deriving DecidableEq, Inhabited, Repr

/-- Adds a positional argument if there is room for it. -/
def Given.addPosition (g : Given) (command : CommandName) (s : String) : Except Reply Given :=
  let (kinds, repeated) := command.positions
  let kind? := kinds[if repeated then 0 else g.positional.length]?
  if kind?.any (·.2.accepts s) then .ok { g with positional := s :: g.positional }
  else .error .misuse

/-- Adds an option that has not been given yet. -/
def Given.addOption (g : Given) (name value : String) (kind : ValueKind) : Except Reply Given :=
  if (g.get? name).isSome || !kind.accepts value then .error .misuse
  else .ok { g with options := (name, value) :: g.options }

/-- Whether an argument is an option, as opposed to a value. -/
def isOption (s : String) : Bool := s.toList.head? == some '-' && s ≠ "-"

/-- The name of a long option, and the value after an equals sign. -/
def splitLong (s : String) : String × Option String :=
  let cs := s.toList.drop 2
  let name := String.ofList (cs.takeWhile (· ≠ '='))
  match cs.dropWhile (· ≠ '=') with
  | [] => (name, none)
  | _ :: value => (name, some (String.ofList value))

/-- Reads what follows the name of a command. -/
def readArguments (command : CommandName) : Given → List String → Except Reply Given
  | g, [] => .ok g
  | g, s :: rest =>
    if s = "--" then rest.foldlM (fun g t => g.addPosition command t) g
    else if !isOption s then do readArguments command (← g.addPosition command s) rest
    else if s.startsWith "-h" then .error (.help (some command))
    else if !s.startsWith "--" then .error .misuse
    else
      let (name, value?) := splitLong s
      if name = "help" && value?.isNone then .error (.help (some command))
      else
        match command.options.find? (·.name = name) with
        | none => .error .misuse
        | some ⟨_, none⟩ =>
          if value?.isSome then .error .misuse
          else do readArguments command (← g.addOption name "" .text) rest
        | some ⟨_, some kind⟩ =>
          match value?, rest with
          | some value, rest => do readArguments command (← g.addOption name value kind) rest
          | none, [] => .error .misuse
          | none, value :: rest =>
            if isOption value then .error .misuse
            else do readArguments command (← g.addOption name value kind) rest

/-- The command that the arguments add up to, if none is missing. -/
def Given.command (g : Given) (name : CommandName) : Except Reply Command :=
  match name, g.positional.reverse with
  | .run, [schema] =>
    .ok <| .run {
      schema
      dataRoot := g.get? "data-root"
      workspaceRoot := g.get? "workspace-root"
      stageTimeoutMs := (g.get? "stage-timeout-ms").bind number?
      printMetrics := (g.get? "print-metrics").isSome
      metricsJson := g.get? "metrics-json"
      metricsPrometheus := g.get? "metrics-prometheus"
      resultJson := g.get? "result-json" }
  | .validate, [schema] => .ok (.validate schema)
  | .lint, p :: ps => .ok (.lint (p :: ps))
  | .lock, [schema, output] => .ok (.lock schema output)
  | .listPlugins, [] => .ok .listPlugins
  | _, _ => .error .misuse

/-- What a call of the help command asks for. -/
def helpReply : List String → Reply
  | [] => .help none
  | [name] =>
    if name = "help" then .help none
    else
      match CommandName.ofText? name with
      | some command => .help (some command)
      | none => .misuse
  | _ => .misuse

/-- Reads all arguments of the program. -/
def readCommand : List String → Except Reply Command
  | [] => .error .misuse
  | s :: rest =>
    if s = "help" then .error (helpReply rest)
    else if s = "--help" || s.startsWith "-h" then .error (.help none)
    else if s = "--version" || s.startsWith "-V" then .error .version
    else
      match CommandName.ofText? s with
      | some command => do (← readArguments command {} rest).command command
      | none => .error .misuse

end DataPipeline.CommandLine
