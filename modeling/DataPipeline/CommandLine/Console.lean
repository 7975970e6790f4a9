import DataPipeline.BuildError
import DataPipeline.Disk.Basic

namespace DataPipeline

/-- The text in lines: a lead before the first, an indentation before the others. -/
def indented (lead indent text : String) : String :=
  lead ++ ("\n" ++ indent).intercalate (text.splitOn "\n")

/-- A number at the end of five columns. -/
def numberedLead (n : Nat) : String :=
  let digits := toString n
  String.ofList (List.replicate (5 - digits.length) ' ') ++ digits ++ ": "

/-- The causes from a number on, a line of text each. -/
def numberedCauses : Nat → List String → String
  | _, [] => ""
  | n, cause :: rest =>
    "\n" ++ indented (numberedLead n) "       " cause ++ numberedCauses (n + 1) rest

/-- The error above the list of its causes; they are numbered if there are several. -/
def Chain.report (c : Chain) : String :=
  match c.causes with
  | [] => c.message
  | [cause] => c.message ++ "\n\nCaused by:\n" ++ indented "    " "    " cause
  | causes => c.message ++ "\n\nCaused by:" ++ numberedCauses 0 causes

namespace CommandLine

inductive Level where
  | info
  | warn
  | error
  deriving DecidableEq, Inhabited, Repr

def Level.name : Level → String
  | info => "INFO"
  | warn => "WARN"
  | error => "ERROR"

/-- A message, and values under names as they are written. -/
structure LogEntry where
  level : Level
  message : String
  fields : List (String × String)
  deriving DecidableEq, Inhabited, Repr

/-- A character of a message; those that would steer a terminal are escaped. -/
def messageChars (c : Char) : List Char :=
  let n := c.toNat
  let digits := Nat.toDigits 16 n
  if n = 0x1B ∨ n = 0x7F then ['\\', 'x'] ++ digits
  else if n = 7 ∨ n = 8 ∨ n = 0xC then ['\\', 'x', '0'] ++ digits
  else if 0x80 ≤ n ∧ n ≤ 0x9F then Text.codePointChars c
  else [c]

def LogEntry.text (e : LogEntry) : String :=
  String.ofList (e.message.toList.flatMap messageChars) ++
    String.join (e.fields.map fun f => " " ++ f.1 ++ "=" ++ f.2)

/-- The files, what was printed, and what the command itself has logged, its last entry last.
What the engine logs of its own, such as that a stage has failed, is left out. -/
structure Console where
  disk : Disk
  printed : String := ""
  log : List LogEntry := []
  deriving Inhabited

/-- What happens on a console, up to an error. -/
abbrev Script := ExceptT Chain (StateM Console)

namespace Script

def log (level : Level) (message : String) (fields : List (String × String)) : Script Unit :=
  modify fun c => { c with log := c.log ++ [⟨level, message, fields⟩] }

def print (text : String) : Script Unit :=
  modify fun c => { c with printed := c.printed ++ text }

/-- Ends with an error of one message. -/
def fail {α : Type} (message : String) : Script α := throw (Chain.of message)

/-- Goes on with a result, or ends with the error that there is in its place. -/
def ofExcept {α ε : Type} (chain : ε → Chain) : Except ε α → Script α
  | .ok a => pure a
  | .error e => throw (chain e)

end Script

end CommandLine

end DataPipeline
