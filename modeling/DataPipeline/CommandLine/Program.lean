import DataPipeline.CommandLine.Commands
import DataPipeline.CommandLine.Help

namespace DataPipeline.CommandLine

/-- What the program leaves behind; `complaint` is the error that it ends with. -/
structure Exit where
  code : Nat
  printed : String
  log : List LogEntry
  complaint : Option String
  disk : Disk

/-- An exit of a program that has done nothing but print. -/
def Exit.printing (disk : Disk) (code : Nat) (printed : String) (complaint : Option String) :
    Exit :=
  ⟨code, printed, [], complaint, disk⟩

/-- Exits with 0, or with 1 if there was an error. -/
def Exit.ofScript (script : Script Unit) (disk : Disk) : Exit :=
  match script.run { disk } with
  | (.ok (), c) => ⟨0, c.printed, c.log, none, c.disk⟩
  | (.error e, c) => ⟨1, c.printed, c.log, some ("Error: " ++ e.report ++ "\n"), c.disk⟩

/-- Runs the program; it exits with 2 if its arguments make no command. -/
def program (h : Host) (disk : Disk) (arguments : List String) : Exit :=
  match readCommand arguments with
  | .error (.help c) => .printing disk 0 (helpText c) none
  | .error .version => .printing disk 0 versionText none
  | .error .misuse => .printing disk 2 "" (some misuseText)
  | .ok command => .ofScript (h.perform command) disk

end DataPipeline.CommandLine
