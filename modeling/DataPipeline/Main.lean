import DataPipeline.CommandLine.Clock
import DataPipeline.CommandLine.Program
import Std.Time.DateTime.Timestamp

namespace DataPipeline.CommandLine

/-- What stands at an entry of a directory, and below it down to a depth; links to directories
are left out, and so is what cannot be read. -/
partial def readItems (depth : Nat) (place : Location) (entry : IO.FS.DirEntry) :
    IO (List (Location × Item)) := do
  try
    match (← entry.path.symlinkMetadata).type with
    | .dir =>
      if depth = 0 then return [(place, .directory)]
      let below ← (← entry.path.readDir).toList.mapM fun e =>
        readItems (depth - 1) (e.fileName :: place) e
      return (place, .directory) :: below.flatten
    | .other => return []
    | _ => return [(place, .file (← IO.FS.readBinFile entry.path))]
  catch _ => return []

/-- The directory at an absolute path, and what is in it. -/
def readDirectory (depth : Nat) (path : String) : IO (List (Location × Item)) :=
  readItems depth (FilePath.segments path).reverse ⟨path, ""⟩

/-- The disk as far as the program is going to look at it. -/
def readDisk (cwd : String) (arguments : List String) : IO Disk := do
  let beside := (arguments.filter FilePath.isAbsolute).filterMap FilePath.parent?
  let outside ← beside.mapM (readDirectory 1)
  let inside ← readDirectory 64 cwd
  let above : Disk := ({} : Disk).put (FilePath.segments cwd).reverse .directory
  return outside.flatten.foldl (fun d i => d.put i.1 i.2) ⟨inside ++ above.items⟩

/-- Writes one item to the place where it stands. -/
def writeItem (place : Location) : Item → IO Unit
  | .directory => IO.FS.createDirAll ("/" ++ "/".intercalate place.reverse)
  | .file bytes => IO.FS.writeBinFile ("/" ++ "/".intercalate place.reverse) bytes

def isSame : Option Item → Item → Bool
  | some .directory, .directory => true
  | some (.file a), .file b => a == b
  | _, _ => false

/-- Writes what one disk has and the other has not, directories before what is in them. -/
def writeChanges (before after : Disk) : IO Unit := do
  let changed := after.items.filter fun i => !isSame (before.get? i.1) i.2
  for (place, item) in changed.mergeSort (fun a b => a.1.length ≤ b.1.length) do
    writeItem place item

/-- The moment it is. -/
def present : IO Moment := do
  let nanos := (← Std.Time.Timestamp.now).toNanosecondsSinceUnixEpoch.val.toNat
  return ⟨nanos / 1000000000, nanos % 1000000000⟩

/-- A log entry as a line. -/
def logLine (m : Moment) (e : LogEntry) : String :=
  let level := e.level.name
  m.stamp ++ String.ofList (List.replicate (6 - level.length) ' ') ++ level ++ " " ++
    programName ++ ": " ++ e.text

end DataPipeline.CommandLine

open DataPipeline DataPipeline.CommandLine in
def main (arguments : List String) : IO UInt32 := do
  let cwd := (← IO.currentDir).toString
  let dataRoot ← IO.getEnv BuildContext.dataRootVariable
  let workspaceRoot ← IO.getEnv BuildContext.workspaceRootVariable
  let environment (name : String) : Option String :=
    if name = BuildContext.dataRootVariable then dataRoot
    else if name = BuildContext.workspaceRootVariable then workspaceRoot
    else none
  let start ← present
  let disk ← readDisk cwd (arguments ++ dataRoot.toList ++ workspaceRoot.toList)
  let exit := program ⟨cwd, environment, start.runId, start.text⟩ disk arguments
  writeChanges disk exit.disk
  IO.print exit.printed
  for entry in exit.log do
    IO.eprintln (logLine start entry)
  if let some complaint := exit.complaint then IO.eprint complaint
  return UInt32.ofNat exit.code
