import DataPipeline.Disk.FilePath
import DataPipeline.Text.Sorted

namespace DataPipeline

inductive FileError where
  | notFound
  | alreadyExists
  | notDirectory
  | isDirectory
  | nameTooLong
  | zeroInName
  | notText
  deriving DecidableEq, Inhabited, Repr

def FileError.message : FileError → String
  | notFound => "No such file or directory (os error 2)"
  | alreadyExists => "File exists (os error 17)"
  | notDirectory => "Not a directory (os error 20)"
  | isDirectory => "Is a directory (os error 21)"
  | nameTooLong => "File name too long (os error 36)"
  | zeroInName => "file name contained an unexpected NUL byte"
  | notText => "stream did not contain valid UTF-8"

inductive Item where
  | file (bytes : ByteArray)
  | directory
  deriving Inhabited

/-- The names from a place up to the root. -/
abbrev Location := List String

/-- What stands where; the root is always a directory. -/
structure Disk where
  items : List (Location × Item) := []
  deriving Inhabited

namespace Disk

def get? (d : Disk) : Location → Option Item
  | [] => some .directory
  | l => (d.items.find? (·.1 = l)).map (·.2)

def set (d : Disk) (l : Location) (item : Item) : Disk :=
  ⟨(l, item) :: d.items.filter (·.1 ≠ l)⟩

def isTooLong (name : String) : Bool := 255 < name.utf8ByteSize

/-- From a directory to one of the places in it. -/
def enter (d : Disk) (dir : Location) (name : String) : Except FileError Location :=
  if name = "." then .ok dir
  else if name = ".." then .ok dir.tail
  else if isTooLong name then .error .nameTooLong
  else
    match d.get? (name :: dir) with
    | none => .error .notFound
    | some (.file _) => .error .notDirectory
    | some .directory => .ok (name :: dir)

/-- The directory a path leads to and the last name in it; no name if the path ends in
points. -/
def follow (d : Disk) : Location → List String → Except FileError (Location × Option String)
  | dir, [] => .ok (dir, none)
  | dir, [name] => if name = "." ∨ name = ".." then (d.enter dir name).map (·, none)
    else .ok (dir, some name)
  | dir, name :: rest => do d.follow (← d.enter dir name) rest

def locate (d : Disk) (path : String) : Except FileError (Location × Option String) :=
  if path.toList.contains '\x00' then .error .zeroInName
  else if path = "" then .error .notFound
  else if 4095 < path.utf8ByteSize then .error .nameTooLong
  else d.follow [] ((FilePath.split path).filter (· ≠ ""))

/-- What stands at a path. -/
def find (d : Disk) (path : String) : Except FileError Item := do
  match ← d.locate path with
  | (_, none) => .ok .directory
  | (dir, some name) =>
    if isTooLong name then .error .nameTooLong
    else
      match d.get? (name :: dir) with
      | none => .error .notFound
      | some (.file bytes) =>
        if FilePath.endsInSlash path then .error .notDirectory else .ok (.file bytes)
      | some .directory => .ok .directory

def isDirectory (d : Disk) (path : String) : Bool :=
  match d.find path with
  | .ok .directory => true
  | _ => false

/-- The directory at a path. -/
def directory? (d : Disk) (path : String) : Option Location :=
  match d.locate path with
  | .ok (l, none) => some l
  | .ok (l, some name) =>
    match d.get? (name :: l) with
    | some .directory => some (name :: l)
    | _ => none
  | .error _ => none

/-- The names in the directory at a path, in ascending order. -/
def names (d : Disk) (path : String) : List String :=
  match d.directory? path with
  | none => []
  | some l => Text.sorted (d.items.filterMap fun i => if i.1.tail = l then i.1.head? else none)

def readText (d : Disk) (path : String) : Except FileError String := do
  match ← d.find path with
  | .directory => .error .isDirectory
  | .file bytes =>
    match String.fromUTF8? bytes with
    | some text => .ok text
    | none => .error .notText

/-- Where a file can be written, and what it holds now. -/
def target (d : Disk) (path : String) : Except FileError (Location × ByteArray) := do
  match ← d.locate path with
  | (_, none) => .error .isDirectory
  | (dir, some name) =>
    if FilePath.endsInSlash path then .error .isDirectory
    else if isTooLong name then .error .nameTooLong
    else
      match d.get? (name :: dir) with
      | none => .ok (name :: dir, .empty)
      | some (.file bytes) => .ok (name :: dir, bytes)
      | some .directory => .error .isDirectory

/-- Writes a file anew. -/
def write (d : Disk) (path text : String) : Except FileError Disk := do
  let (l, _) ← d.target path
  .ok (d.set l (.file text.toUTF8))

/-- Writes at the end of a file, which need not exist. -/
def append (d : Disk) (path text : String) : Except FileError Disk := do
  let (l, bytes) ← d.target path
  .ok (d.set l (.file (bytes ++ text.toUTF8)))

/-- Makes one directory in a directory that exists. -/
def makeDirectory (d : Disk) (path : String) : Except FileError Disk := do
  match ← d.locate path with
  | (_, none) => .error .alreadyExists
  | (dir, some name) =>
    if isTooLong name then .error .nameTooLong
    else if (d.get? (name :: dir)).isSome then .error .alreadyExists
    else .ok (d.set (name :: dir) .directory)

/-- Makes a directory in one that is there by now; it may be there itself. -/
def settleDirectory (d : Disk) (path : String) : Except FileError Unit × Disk :=
  match d.makeDirectory path with
  | .ok d => (.ok (), d)
  | .error e => (if d.isDirectory path then .ok () else .error e, d)

/-- Makes a directory and those above it that are missing. Directories made before a failure
stay. -/
def makeDirectories : Nat → Disk → String → Except FileError Unit × Disk
  | 0, d, path => d.settleDirectory path
  | fuel + 1, d, path =>
    if path = "" then (.ok (), d)
    else
      match d.makeDirectory path, FilePath.parent? path with
      | .error .notFound, some parent =>
        match makeDirectories fuel d parent with
        | (.ok (), d) => d.settleDirectory path
        | failed => failed
      | _, _ => d.settleDirectory path

def makeAll (d : Disk) (path : String) : Except FileError Unit × Disk :=
  makeDirectories path.length d path

/-- Puts an item at a place whatever stands on the way to it. -/
def put (d : Disk) (l : Location) (item : Item) : Disk :=
  let above := (List.range l.length).drop 1 |>.map l.drop
  (above.foldl (fun d dir => if (d.get? dir).isSome then d else d.set dir .directory) d).set
    l item

end Disk

end DataPipeline
