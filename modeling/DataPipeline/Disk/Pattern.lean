import DataPipeline.Disk.Basic

namespace DataPipeline

namespace FilePattern

/-- A character, or the characters from one to another. -/
inductive CharRange where
  | one (c : Char)
  | upTo (first last : Char)
  deriving DecidableEq, Inhabited, Repr

def CharRange.contains (c : Char) : CharRange → Bool
  | one d => c = d
  | upTo first last => first ≤ c && c ≤ last

inductive Token where
  | char (c : Char)
  | anyChar
  | anyText
  | directories
  | oneOf (ranges : List CharRange)
  | noneOf (ranges : List CharRange)
  deriving DecidableEq, Inhabited, Repr

/-- Why a text is no pattern. -/
inductive Defect where
  | tooManyStars
  | directoriesInSegment
  | badBrackets
  deriving DecidableEq, Inhabited, Repr

def Defect.message : Defect → String
  | tooManyStars => "wildcards are either regular \x60*\x60 or recursive \x60**\x60"
  | directoriesInSegment => "recursive wildcards must form a single path component"
  | badBrackets => "invalid range pattern"

/-- A defect and where in the text it is. -/
structure Malformed where
  position : Nat
  defect : Defect
  deriving DecidableEq, Inhabited, Repr

def Malformed.message (m : Malformed) : String :=
  "Pattern syntax error near position " ++ toString m.position ++ ": " ++ m.defect.message

/-- The ranges between brackets; a dash between two characters makes them the ends of one. -/
def ranges : List Char → List CharRange
  | first :: '-' :: last :: rest => .upTo first last :: ranges rest
  | c :: rest => .one c :: ranges rest
  | [] => []

/-- The text up to the next closing bracket, and the rest after it; the first character is not
looked at. -/
def bracketed : List Char → Option (List Char × List Char)
  | [] => none
  | c :: rest =>
    let inner := rest.takeWhile (· ≠ ']')
    match rest.dropWhile (· ≠ ']') with
    | [] => none
    | _ :: after => some (c :: inner, after)

/-- The token of an opening bracket, and the rest after it. -/
def bracketToken (rest : List Char) : Option (Token × List Char) :=
  match rest with
  | '!' :: chars => (bracketed chars).map fun (inner, after) => (.noneOf (ranges inner), after)
  | chars => (bracketed chars).map fun (inner, after) => (.oneOf (ranges inner), after)

/-- Reads tokens from a position on; `fresh` tells that a segment starts there. -/
def tokensFrom : Nat → Bool → Nat → List Char → Except Malformed (List Token)
  | 0, _, _, _ => .ok []
  | _, _, _, [] => .ok []
  | fuel + 1, fresh, position, c :: rest =>
    if c = '?' then do .ok (.anyChar :: (← tokensFrom fuel false (position + 1) rest))
    else if c = '*' then
      let stars := (rest.takeWhile (· = '*')).length + 1
      let after := rest.dropWhile (· = '*')
      if 2 < stars then .error ⟨position + 2, .tooManyStars⟩
      else if stars = 1 then do .ok (.anyText :: (← tokensFrom fuel false (position + 1) after))
      else if !fresh then .error ⟨position - 1, .directoriesInSegment⟩
      else
        match after with
        | [] => .ok [.directories]
        | '/' :: after => do .ok (.directories :: (← tokensFrom fuel true (position + 3) after))
        | _ => .error ⟨position + 2, .directoriesInSegment⟩
    else if c = '[' then
      match bracketToken rest with
      | none => .error ⟨position, .badBrackets⟩
      | some (token, after) => do
        .ok
          (token :: (← tokensFrom fuel false (position + 1 + rest.length - after.length) after))
    else do .ok (.char c :: (← tokensFrom fuel (c = '/') (position + 1) rest))

def tokens (pattern : String) : Except Malformed (List Token) :=
  let cs := pattern.toList
  tokensFrom cs.length true 0 cs

/-- Whether some end of the text has a property. -/
def anyEnd (p : List Char → Bool) : List Char → Bool
  | [] => p []
  | c :: rest => p (c :: rest) || anyEnd p rest

/-- Whether tokens stand for the whole of a name. -/
def isMatch : List Token → List Char → Bool
  | [], cs => cs.isEmpty
  | .anyText :: rest, cs => anyEnd (isMatch rest) cs
  | .directories :: rest, cs => isMatch rest cs
  | _ :: _, [] => false
  | .char d :: rest, c :: cs => c = d && isMatch rest cs
  | .anyChar :: rest, _ :: cs => isMatch rest cs
  | .oneOf ranges :: rest, c :: cs => ranges.any (·.contains c) && isMatch rest cs
  | .noneOf ranges :: rest, c :: cs => !ranges.any (·.contains c) && isMatch rest cs

/-- The name a segment stands for if it has no special characters. -/
def literal? : List Token → Option (List Char)
  | [] => some []
  | .char c :: rest => (literal? rest).map (c :: ·)
  | _ => none

def isDirectories (segment : List Token) : Bool := segment.contains .directories

/-- A search: where it looks, and whether only directories count. -/
structure Search where
  disk : Disk
  cwd : String
  onlyDirectories : Bool

namespace Search

def isDirectory (s : Search) (path : String) : Bool :=
  s.disk.isDirectory (FilePath.seenFrom s.cwd path)

/-- Whether something stands at a path. -/
def isThere (s : Search) (path : String) : Bool :=
  (s.disk.find (FilePath.seenFrom s.cwd path)).toBool

def found (s : Search) (path : String) : List String :=
  if s.onlyDirectories && !s.isDirectory path then [] else [path]

/-- Whether a path is the current directory itself. -/
def isHere (path : String) : Bool :=
  (FilePath.split path).head? == some "." && (FilePath.segments path).isEmpty

/-- The path of a name in a directory; nothing is put before names in the current directory. -/
def inside (path name : String) : String :=
  if isHere path then name else FilePath.join path name

mutual

/-- Searches a directory for what the first segment stands for, and goes on from there. -/
def enter (s : Search) : Nat → List (List Token) → String → List String
  | fuel + 1, segment :: rest, path =>
    match literal? segment with
    | some cs =>
      let name := String.ofList cs
      let next := inside path name
      let there := if name = "." ∨ name = ".." then s.isDirectory path else s.isThere next
      if there then s.goOn fuel rest next else []
    | none =>
      if !s.isDirectory path then []
      else
        let points := if segment.head? = some (.char '.') then ["..", "."] else []
        (points.filter (isMatch segment ·.toList)).flatMap
            (fun name => s.goOn fuel rest (FilePath.join path name)) ++
          (s.disk.names (FilePath.seenFrom s.cwd path)).flatMap
            (fun name => s.visit fuel (segment :: rest) (inside path name))
  | _, _, _ => []

/-- Goes on from a path that the segments so far stand for. -/
def goOn (s : Search) : Nat → List (List Token) → String → List String
  | _, [], path => s.found path
  | fuel + 1, rest, path => s.enter fuel rest path
  | _, _, _ => []

/-- Looks at one path in a directory that was searched. -/
def visit (s : Search) : Nat → List (List Token) → String → List String
  | fuel + 1, segment :: rest, path =>
    if isDirectories segment then
      let rest := rest.dropWhile isDirectories
      if s.isDirectory path then
        (if rest.isEmpty then [path] else s.compare fuel rest path) ++
          s.enter fuel (segment :: rest) path
      else if rest.isEmpty then []
      else s.compare fuel rest path
    else s.compare fuel (segment :: rest) path
  | _, _, _ => []

/-- Compares the last name of a path with the first segment. -/
def compare (s : Search) : Nat → List (List Token) → String → List String
  | fuel + 1, segment :: rest, path =>
    match FilePath.fileName? path with
    | some name => if isMatch segment name.toList then s.goOn fuel rest path else []
    | none => []
  | _, _, _ => []

end

end Search

/-- The segments of a pattern without the slash at its start; a slash at its end adds none. -/
def segments (pattern : String) : List String :=
  let rest := if FilePath.isAbsolute pattern then (pattern.drop 1).toString else pattern
  if rest = "" then [""]
  else
    let pieces := FilePath.split rest
    if pieces.getLast? = some "" then pieces.dropLast else pieces

end FilePattern

/-- The paths on a disk that match a pattern, seen from a directory, in ascending order of their
names. -/
def Disk.matching (disk : Disk) (cwd pattern : String) :
    Except FilePattern.Malformed (List String) := do
  let _ ← FilePattern.tokens pattern
  let segments ← (FilePattern.segments pattern).mapM FilePattern.tokens
  let search : FilePattern.Search := ⟨disk, cwd, FilePath.endsInSlash pattern⟩
  let fuel := 4 * (segments.length + 1) * (disk.items.length + 2)
  .ok (search.enter fuel segments (if FilePath.isAbsolute pattern then "/" else "."))

end DataPipeline
