namespace DataPipeline.FilePath

/-- The texts between slashes. -/
def splitChars : List Char → List (List Char)
  | [] => [[]]
  | c :: rest =>
    if c = '/' then [] :: splitChars rest
    else
      match splitChars rest with
      | [] => [[c]]
      | s :: more => (c :: s) :: more

def split (path : String) : List String := (splitChars path.toList).map String.ofList

/-- The segments that name something: neither empty nor a single point. -/
def segments (path : String) : List String := (split path).filter fun s => s ≠ "" && s ≠ "."

def isAbsolute (path : String) : Bool := path.toList.head? == some '/'

def endsInSlash (path : String) : Bool := path.toList.getLast? == some '/'

/-- The last segment, unless it leads upward. -/
def fileName? (path : String) : Option String := (segments path).getLast?.filter (· ≠ "..")

/-- What follows the last point of the file name; a point at its start does not count. -/
def extension? (path : String) : Option String := do
  let name := (← fileName? path).toList.reverse
  let tail := name.takeWhile (· ≠ '.')
  if name.length ≤ tail.length + 1 then none else some (String.ofList tail.reverse)

/-- How many characters at the start belong to no segment that can be taken away. -/
def bodyStart : List Char → Nat
  | '/' :: _ => 1
  | ['.'] => 1
  | '.' :: '/' :: _ => 1
  | _ => 0

/-- The last segment of the body, written backwards, and the text before its slash. -/
def cutLast (start : Nat) (path : List Char) : List Char × List Char :=
  let last := (path.drop start).reverse.takeWhile (· ≠ '/')
  let before := path.take (path.length - last.length)
  (last, if before.length ≤ start then before else before.dropLast)

/-- Drops final slashes and points. -/
def trim (start : Nat) : Nat → List Char → List Char
  | 0, path => path
  | fuel + 1, path =>
    if path.length ≤ start then path
    else
      match cutLast start path with
      | ([], before) =>
        trim start fuel (if before.length = path.length then path.dropLast else before)
      | (['.'], before) => trim start fuel before
      | _ => path

/-- The path without its last segment; none for the root and the empty path. -/
def parent? (path : String) : Option String :=
  let cs := path.toList
  let start := bodyStart cs
  let body := trim start cs.length cs
  if body.length ≤ start then
    if cs.head? = some '.' then some "" else none
  else some (String.ofList (trim start cs.length (cutLast start body).2))

/-- The path seen from a directory, unless it is absolute. -/
def join (base path : String) : String :=
  if isAbsolute path then path
  else if base = "" ∨ endsInSlash base then base ++ path
  else base ++ "/" ++ path

/-- The path as it is followed from the root when given in a directory; an empty path leads
nowhere. -/
def seenFrom (cwd path : String) : String := if path = "" then "" else join cwd path

/-- The path made absolute, without points and repeated slashes; a final slash stays. -/
def absolute (cwd path : String) : String :=
  let cs := path.toList
  let lead :=
    if !isAbsolute path then cwd
    else if cs.take 2 = ['/', '/'] ∧ cs.take 3 ≠ ['/', '/', '/'] then "//"
    else "/"
  let joined := (segments path).foldl join lead
  if endsInSlash path ∧ !endsInSlash joined then joined ++ "/" else joined

end DataPipeline.FilePath
