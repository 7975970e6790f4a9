import DataPipeline.CommandLine.Arguments

namespace DataPipeline.CommandLine

def programName : String := "datajet"

def versionText : String := programName ++ " 0.1.0\n"

/-- What a command is for. -/
def CommandName.purpose : CommandName → Option String
  | run => some "Build and execute a pipeline schema"
  | validate => some "Check a schema without building it"
  | lint => some "Validate every schema matching the given glob patterns"
  | lock => some "Write a lockfile pinning plugin configuration digests"
  | listPlugins => none

/-- A table of two columns, the second of which starts at the same place in all rows. -/
def table (rows : List (String × String)) : String :=
  let width := rows.foldl (fun w r => max w r.1.length) 0
  String.join (rows.map fun r =>
    "  " ++ r.1 ++ String.ofList (List.replicate (width - r.1.length) ' ') ++
      "  " ++ r.2 ++ "\n")

def block (title : String) (rows : List (String × String)) : String :=
  if rows.isEmpty then "" else "\n" ++ title ++ ":\n" ++ table rows

/-- The name of an option's value. -/
def OptionSpec.valueName (o : OptionSpec) : String :=
  String.ofList (o.name.toList.map fun c => if c = '-' then '_' else c.toUpper)

def OptionSpec.usage (o : OptionSpec) : String :=
  "    --" ++ o.name ++ if o.value.isSome then " <" ++ o.valueName ++ ">" else ""

def helpRow : String × String := ("-h, --help", "Print help")

/-- The positional arguments as they are written in a call. -/
def CommandName.places (c : CommandName) : List String :=
  let (kinds, repeated) := c.positions
  kinds.map fun k => "<" ++ k.1 ++ ">" ++ if repeated then "..." else ""

def CommandName.help (c : CommandName) : String :=
  let options := c.options
  (c.purpose.map (· ++ "\n\n")).getD "" ++ "Usage: " ++
    " ".intercalate ([programName, c.text] ++ (if options.isEmpty then [] else ["[OPTIONS]"]) ++
      c.places) ++ "\n" ++
    block "Arguments" (c.places.map (·, "")) ++
    block "Options" (options.map (fun o => (o.usage, "")) ++ [helpRow])

def helpText : Option CommandName → String
  | some c => c.help
  | none =>
    "Declarative data pipeline assembler\n\nUsage: " ++ programName ++ " <COMMAND>\n" ++
      block "Commands" (CommandName.all.map (fun c => (c.text, c.purpose.getD "")) ++
        [("help", "Print this message or the help of the given subcommand(s)")]) ++
      block "Options" [helpRow, ("-V, --version", "Print version")]

def misuseText : String :=
  "error: the arguments do not make a command\n\nFor more information, try '--help'.\n"

end DataPipeline.CommandLine
