import DataPipeline.Yaml.Cursor
import DataPipeline.Yaml.Plain

namespace DataPipeline.Yaml

inductive Form where
  | plain
  | single
  | double
  | lines
  deriving DecidableEq, Inhabited, Repr

/-- A character that can be written as it is. -/
def isPrintable (c : Char) : Bool :=
  let n := c.toNat
  c = '\n' || (0x20 ≤ n && n ≤ 0x7E) || (0xA0 ≤ n && n ≠ 0xFEFF && n ≠ 0xFFFE && n ≠ 0xFFFF)

/-- Whether nothing or a gap comes next. -/
def gapFollows (cs : List Char) : Bool :=
  cs.head?.all fun c => isBlank c || isBreak c || c.toNat = 0

/-- Whether a text begins as something else than plain text does. -/
def beginsAsMark : List Char → Bool
  | [] => false
  | c :: rest =>
    [c, c, c].isPrefixOf (c :: rest) && (c = '-' || c = '.') ||
    "#,[]\x7b\x7d&*!|>'\"%@\x60".toList.contains c ||
    (c = '?' || c = ':' || c = '-') && gapFollows rest

/-- Whether a colon ends a key or a hash sign starts a comment after the given character. -/
def breaksOff : Char → List Char → Bool
  | _, [] => false
  | before, c :: rest =>
    c = ':' && gapFollows rest || c = '#' && gapFollows [before] || breaksOff c rest

/-- Whether two characters of the given classes stand side by side. -/
def hasPair (p q : Char → Bool) : List Char → Bool
  | c :: d :: rest => p c && q d || hasPair p q (d :: rest)
  | _ => false

def isSpace (c : Char) : Bool := c = ' '

/-- Whether neither a plain nor a quoted text with line breaks in it can stand for the text. -/
def needsEscapes (cs : List Char) : Bool :=
  cs.any (!isPrintable ·) || hasPair isSpace isBreak cs

def isPlainText (cs : List Char) : Bool :=
  !beginsAsMark cs && !breaksOff 'x' cs && !cs.any (fun c => isBreak c || !isPrintable c) &&
    !cs.head?.any isSpace && !cs.getLast?.any isSpace

/-- Whether a plain text would be read as something else than text. -/
def isAmbiguous (s : String) : Bool :=
  hasSpareZero s.toList ||
    match plainFound s with
    | .string _ => false
    | _ => true

/-- The form in which a text is written. -/
def formOf (s : String) : Form :=
  let cs := s.toList
  if cs.contains '\n' then if needsEscapes cs || cs.getLast?.any isSpace then
    .double else .lines
  else if !isAmbiguous s && isPlainText cs then .plain
  else if needsEscapes cs || hasPair isBreak isSpace cs then .double
  else .single

def spaces (n : Nat) : List Char := List.replicate n ' '

/-- The text in single quotes; the flag tells of a line break before it. -/
def singleQuoted (indent : Nat) : Bool → List Char → List Char
  | broken, [] => if broken then spaces indent ++ ['\''] else ['\'']
  | broken, c :: rest =>
    if isBreak c then c :: singleQuoted indent true rest
    else
      (if broken then spaces indent else []) ++ (if c = '\'' then ['\'', '\''] else [c]) ++
        singleQuoted indent false rest

def upperHex (n : Nat) : Char := Char.ofNat (if n < 10 then 48 + n else 55 + n)

/-- The last hexadecimal digits of a number. -/
def upperHexChars : Nat → Nat → List Char
  | 0, _ => []
  | width + 1, n => upperHexChars width (n / 16) ++ [upperHex (n % 16)]

/-- The escape of a character in double quotes. -/
def escapeOf (c : Char) : List Char :=
  let n := c.toNat
  let letters : List (Nat × Char) :=
    [(0, '0'), (7, 'a'), (8, 'b'), (9, 't'), (10, 'n'), (11, 'v'),
    (12, 'f'), (13, 'r'), (27, 'e'), (34, '"'), (92, '\\'), (0x85, 'N'),
    (0x2028, 'L'), (0x2029, 'P')]
  match letters.lookup n with
  | some letter => ['\\', letter]
  | none =>
    if n ≤ 0xFF then '\\' :: 'x' :: upperHexChars 2 n
    else if n ≤ 0xFFFF then '\\' :: 'u' :: upperHexChars 4 n
    else '\\' :: 'U' :: upperHexChars 8 n

def doubleQuoted (cs : List Char) : List Char :=
  let written := cs.flatMap fun c =>
    if !isPrintable c || isBreak c || c = '"' || c = '\\' then escapeOf c else [c]
  '"' :: written ++ ['"']

/-- The mark in front of the lines: a digit where they would not show where they start, and a
sign for the line breaks at the end, none for a single one. -/
def linesMark (cs : List Char) : List Char :=
  let digit := if cs.head?.any (fun c => isSpace c || isBreak c) then ['2'] else []
  let sign :=
    match cs.reverse with
    | last :: before =>
      if !isBreak last then ['-']
      else if before.head?.all isBreak then ['+']
      else []
    | [] => ['-']
  '|' :: digit ++ sign

/-- The lines, each indented where it starts. -/
def indentLines (indent : Nat) : Bool → List Char → List Char
  | _, [] => []
  | starts, c :: rest =>
    if isBreak c then c :: indentLines indent true rest
    else (if starts then spaces indent else []) ++ c :: indentLines indent false rest

/-- A text as a value up to the end of its last line; lines after the first are indented. -/
def writtenValue (indent : Nat) (s : String) : List Char :=
  let cs := s.toList
  match formOf s with
  | .plain => cs ++ ['\n']
  | .single => '\'' :: singleQuoted indent false cs ++ ['\n']
  | .double => doubleQuoted cs ++ ['\n']
  | .lines =>
    linesMark cs ++ '\n' :: indentLines indent true cs ++
      if cs.getLast?.any isBreak then [] else ['\n']

/-- A field of a block at a column. -/
def writtenField (column : Nat) (name value : String) : List Char :=
  name.toList ++ ':' :: ' ' :: writtenValue (column + 2) value

/-- Fields as one item of a list at a column: a dash stands before the first. -/
def writtenItem (column : Nat) : List (String × String) → List Char
  | [] => []
  | (name, value) :: rest =>
    spaces column ++ '-' :: ' ' :: writtenField (column + 2) name value ++
      rest.flatMap fun f => spaces (column + 2) ++ writtenField (column + 2) f.1 f.2

end DataPipeline.Yaml
