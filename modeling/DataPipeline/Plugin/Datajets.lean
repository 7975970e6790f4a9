import DataPipeline.Plugin.Config
import DataPipeline.Json.Printer

namespace DataPipeline

open Document

/-- The records of a batch, each on a line of its own after the given text. -/
def lines (lead : String) (batch : Batch) : String :=
  String.join (batch.map fun record => lead ++ record.compact ++ "\n")

/-- The label in front of every line, if any. -/
def labelShape : Shape (Option String) where
  name := "struct StdoutConfig"
  fields := ["label"]
  optional _ := true
  start := none
  put _ _ r d := Reading.readOption (Reading.readText "a string") r d

def stdoutDatajet (label : Option String) : Datajet where
  name := "stdout"
  transmit _ batch _ := do
    Activity.perform (.print (lines ((label.map fun l => "[" ++ l ++ "] ").getD "") batch))
    Activity.wait
    .done (.ok ())

def stdoutFactory : Factory Datajet := fun config _ => do
  .ok (stdoutDatajet (← ofConfig labelShape config))

def pathShape : Shape String where
  name := "struct FileConfig"
  fields := ["path"]
  optional _ := false
  start := ""
  put _ _ r d := Reading.readText "path string" r d

/-- Why a path cannot name a file below the workspace, none if it can. -/
def pathDefect (path : String) : Option String :=
  if FilePath.isAbsolute path then
    some ("file datajet 'path' must be relative to the workspace root: " ++ path)
  else if (FilePath.segments path).contains ".." then
    some ("file datajet 'path' must stay under the workspace root: " ++ path)
  else if (FilePath.fileName? path).isNone then some "file datajet 'path' must name a file"
  else none

/-- Lines at the end of a file. Validation makes the directories above it. Whatever is done to
files is waited for, but it takes no virtual time, and a text is written as a whole or not at
all. -/
def fileDatajet (path : String) : Datajet where
  name := "file"
  validate _ :=
    match FilePath.parent? path with
    | none => .done .passed
    | some parent => do
      let made ← Activity.perform (.makeDirectories parent)
      Activity.wait
      match made with
      | .ok () => .done .passed
      | .error e =>
        .done (.failed ("cannot create output directory " ++ parent ++ ": " ++ e.message))
  transmit _ batch _ := do
    let failed (what : String) (e : FileError) : Activity (Except Chain Unit) :=
      .done (.error
        ((Chain.of e.message).under ("Failed to " ++ what ++ " output file: " ++ path)))
    let opened ← Activity.perform (.openFile path)
    Activity.wait
    match opened with
    | .error e => failed "open" e
    | .ok () =>
      let written ← Activity.perform (.append path (lines "" batch))
      Activity.wait
      match written with
      | .error e => failed "write" e
      | .ok () => do
        -- what was written is flushed
        Activity.wait
        .done (.ok ())

def fileFactory : Factory Datajet := fun config context => do
  let path ← ofConfig pathShape config
  match pathDefect path with
  | some message => refuse message
  | none => .ok (fileDatajet (FilePath.join context.workspaceRoot path))

/-- Drops every batch. -/
def discardDatajet : Datajet where
  name := "discard"
  transmit _ _ _ := .done (.ok ())

end DataPipeline
