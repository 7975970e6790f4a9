import DataPipeline.Yaml.Scalar

namespace DataPipeline.Yaml

inductive TokenKind where
  | streamEnd
  | version (major minor : Nat)
  | tagDirective (handle lead : String)
  | documentStart
  | documentEnd
  | blockSequence
  | blockMapping
  | blockEnd
  | flowSequence
  | flowSequenceEnd
  | flowMapping
  | flowMappingEnd
  | blockEntry
  | flowEntry
  | key
  | value
  | alias (name : String)
  | anchor (name : String)
  | tag (handle suffix : String)
  | scalar (text : String) (plain : Bool)
  deriving DecidableEq, Inhabited, Repr

structure Token where
  kind : TokenKind
  start : Place
  stop : Place
  deriving DecidableEq, Inhabited, Repr

/-- A token that a later colon may make a key: its number, its place, and whether it has to be
one. -/
structure PossibleKey where
  number : Nat
  place : Place
  required : Bool
  deriving DecidableEq, Inhabited, Repr

/-- The tokens found so far, the last one first, and the state that decides about the next one.
`keys` has the possible key of each open bracket, the innermost first, and at last that of the
block. -/
structure Scan where
  cursor : Cursor
  tokens : List Token
  indent : Option Nat
  indents : List (Option Nat)
  keys : List (Option PossibleKey)
  keyAllowed : Bool
  deriving Inhabited

namespace Scan

def ofChars (text : List Char) : Scan := ⟨.ofChars text, [], none, [], [none], true⟩

def inFlow (s : Scan) : Bool := 1 < s.keys.length

def here (s : Scan) : Place := s.cursor.place

def push (s : Scan) (kind : TokenKind) (start : Place) : Scan :=
  { s with tokens := ⟨kind, start, s.here⟩ :: s.tokens }

/-- Pushes the token of some characters that are all the same line. -/
def take (s : Scan) (kind : TokenKind) (width : Nat) : Scan :=
  { s with cursor := s.cursor.skipMany width }.push kind s.here

/-- Puts a token of no width in front of a numbered one. -/
def insert (s : Scan) (number : Nat) (kind : TokenKind) (place : Place) : Scan :=
  let later := s.tokens.length - number
  { s with tokens := s.tokens.take later ++ ⟨kind, place, place⟩ :: s.tokens.drop later }

def deeper (indent : Option Nat) (column : Nat) : Bool := indent.all (· < column)

/-- Opens a block at a column to the right of the present one. -/
def openBlock (s : Scan) (column number : Nat) (kind : TokenKind) (place : Place) : Scan :=
  if s.inFlow || !deeper s.indent column then s
  else { s.insert number kind place with
    indent := some column, indents := s.indent :: s.indents }

/-- Closes the blocks to the right of a column, all of them if there is none. -/
def closeBlocks (column : Option Nat) : List (Option Nat) → Scan → Scan
  | [], s => s
  | outer :: rest, s =>
    if s.indent.any fun i => column.all (· < i) then
      closeBlocks column rest { s.push .blockEnd s.here with indent := outer, indents := rest }
    else s

def close (s : Scan) (column : Option Nat) : Scan :=
  if s.inFlow then s else closeBlocks column s.indents s

/-- Forgets the possible key of the innermost bracket; none if it had to be one. -/
def dropKey (s : Scan) : Option Scan :=
  match s.keys with
  | some k :: rest => if k.required then none else some { s with keys := none :: rest }
  | _ => some s

/-- Notes that the next token may be a key. -/
def noteKey (s : Scan) : Option Scan :=
  if s.keyAllowed then do
    let s ← s.dropKey
    let required := !s.inFlow && s.indent = some s.here.column
    some { s with keys := some ⟨s.tokens.length, s.here, required⟩ :: s.keys.tail }
  else some s

/-- A key is a single line of at most 1024 characters. -/
def isStale (s : Scan) (k : PossibleKey) : Bool :=
  k.place.line < s.here.line || k.place.index + 1024 < s.here.index

/-- Forgets the possible keys that have become too long. -/
def dropStale (s : Scan) : Option Scan := do
  let keys ← s.keys.mapM fun key =>
    match key with
    | none => some none
    | some k => if s.isStale k then (if k.required then none else some none) else some (some k)
  some { s with keys }

/-- Past blanks, comments and line breaks to the next token. -/
def toToken : Nat → Scan → Scan
  | 0, s => s
  | fuel + 1, s =>
    let c := s.cursor
    let c := if c.place.column = 0 && c.isAt byteOrderMark then c.skip else c
    let tabs := s.inFlow || !s.keyAllowed
    let c := (c.skipWhile fun ch => ch = ' ' || (tabs && ch = '\t')).2
    let c := if c.isAt '#' then (c.skipWhile fun ch => !isBreak ch).2 else c
    if c.peek?.any isBreak then
      toToken fuel { s with cursor := c.readBreak.2, keyAllowed := s.keyAllowed || !s.inFlow }
    else { s with cursor := c }

def number? (c : Cursor) : Option (Nat × Cursor) :=
  let (ds, c) := c.skipWhile Char.isDigit
  if ds.isEmpty || 9 < ds.length then none
  else some (ds.foldl (fun acc d => acc * 10 + (d.toNat - 48)) 0, c)

def versionDirective (c : Cursor) : Option (TokenKind × Cursor) := do
  let (major, c) ← number? (c.skipWhile isBlank).2
  if !c.isAt '.' then none
  let (minor, c) ← number? c.skip
  some (.version major minor, c)

/-- A tag's handle: a mark, and a word with a mark after it where `whole` asks for one. -/
def tagHandle (whole : Bool) (c : Cursor) : Option (List Char × Cursor) :=
  if !c.isAt '!' then none
  else
    let (word, c) := c.skip.skipWhile isWord
    if c.isAt '!' then some ('!' :: word ++ ['!'], c.skip)
    else if whole && !word.isEmpty then none
    else some ('!' :: word, c)

def isUriChar (verbatim : Bool) (c : Char) : Bool :=
  isWord c || ";/?:@&=+$.%!~*'()".toList.contains c ||
    (verbatim && (c = ',' || c = '[' || c = ']'))

/-- The bytes of consecutive percent escapes, each of two hexadecimal digits. -/
def percentBytes : Nat → Cursor → Option (List UInt8 × Cursor)
  | 0, c => some ([], c)
  | n + 1, c => do
    if !c.isAt '%' then none
    let high ← (c.ahead? 1).bind hexDigit?
    let low ← (c.ahead? 2).bind hexDigit?
    let (bytes, c) ← percentBytes n (c.skipMany 3)
    some ((high * 16 + low).toUInt8 :: bytes, c)

/-- How many bytes the encoding of a character has, by its first byte. -/
def encodedLength? (b : UInt8) : Option Nat :=
  if b < 0x80 then some 1
  else if b &&& 0xE0 = 0xC0 then some 2
  else if b &&& 0xF0 = 0xE0 then some 3
  else if b &&& 0xF8 = 0xF0 then some 4
  else none

/-- The character whose encoding is written in percent escapes. -/
def percentChar (c : Cursor) : Option (Char × Cursor) := do
  let (first, _) ← percentBytes 1 c
  let length ← encodedLength? (first.headD 0)
  let (bytes, c) ← percentBytes length c
  if bytes.tail.all (fun b => b &&& 0xC0 = 0x80) then
    let text := String.fromUTF8? ⟨bytes.toArray⟩
    some ((text.bind (·.toList.head?)).getD '\uFFFD', c)
  else none

def tagUri (verbatim : Bool) : Nat → List Char → Cursor → Option (List Char × Cursor)
  | 0, acc, c => some (acc.reverse, c)
  | fuel + 1, acc, c =>
    match c.peek? with
    | none => some (acc.reverse, c)
    | some ch =>
      if ch = '%' then do
        let (x, c) ← percentChar c
        tagUri verbatim fuel (x :: acc) c
      else if isUriChar verbatim ch then tagUri verbatim fuel (ch :: acc) c.skip
      else some (acc.reverse, c)

def uri (verbatim : Bool) (c : Cursor) : Option (List Char × Cursor) :=
  tagUri verbatim (c.rest.length + 1) [] c

def tagDirective (c : Cursor) : Option (TokenKind × Cursor) := do
  let (handle, c) ← tagHandle true (c.skipWhile isBlank).2
  if !(c.peek?.any isBlank) then none
  let (lead, c) ← uri true (c.skipWhile isBlank).2
  if lead.isEmpty || !c.blankOrEnd 0 then none
  some (.tagDirective (String.ofList handle) (String.ofList lead), c)

def directive (c : Cursor) : Option (TokenKind × Cursor) := do
  let (name, c) := c.skip.skipWhile isWord
  if name.isEmpty || !c.blankOrEnd 0 then none
  if name = ['Y', 'A', 'M', 'L'] then versionDirective c
  else if name = ['T', 'A', 'G'] then tagDirective c
  else none

/-- The name of an anchor or alias after its mark. -/
def anchorName (c : Cursor) : Option (String × Cursor) :=
  let (name, c) := c.skipWhile isWord
  let ends := c.blankOrEnd 0 || (c.peek?.any fun ch => "?:,]\x7d%@`".toList.contains ch)
  if name.isEmpty || !ends then none else some (String.ofList name, c)

/-- A tag's handle and suffix. A tag without a handle of its own has the short one; a lone mark
is all suffix. -/
def tagParts (c : Cursor) : Option (String × String × Cursor) := do
  if c.ahead? 1 = some '<' then
    let (suffix, c) ← uri true (c.skipMany 2)
    if suffix.isEmpty || !c.isAt '>' then none
    else some ("", String.ofList suffix, c.skip)
  else
    let (handle, c) ← tagHandle false c
    let (suffix, c) ← uri false c
    if 1 < handle.length && handle.getLast? = some '!' then
      if suffix.isEmpty then none else some (String.ofList handle, String.ofList suffix, c)
    else
      let suffix := handle.tail ++ suffix
      if suffix.isEmpty then some ("", "!", c) else some ("!", String.ofList suffix, c)

def fetchDirective (s : Scan) : Option Scan := do
  let start := s.here
  let s ← (s.close none).dropKey
  let (kind, c) ← directive s.cursor
  let s := { s with cursor := c, keyAllowed := false }.push kind start
  let c ← restOfLine c
  some { s with cursor := c }

def fetchMarker (s : Scan) (kind : TokenKind) : Option Scan := do
  let s ← (s.close none).dropKey
  some ({ s with keyAllowed := false }.take kind 3)

def fetchOpen (s : Scan) (kind : TokenKind) : Option Scan := do
  let s ← s.noteKey
  some ({ s with keys := none :: s.keys, keyAllowed := true }.take kind 1)

def fetchClose (s : Scan) (kind : TokenKind) : Option Scan := do
  let s ← s.dropKey
  let keys := if s.inFlow then s.keys.tail else s.keys
  some ({ s with keys, keyAllowed := false }.take kind 1)

def fetchFlowEntry (s : Scan) : Option Scan := do
  let s ← s.dropKey
  some ({ s with keyAllowed := true }.take .flowEntry 1)

def fetchBlockEntry (s : Scan) : Option Scan := do
  if !s.inFlow && !s.keyAllowed then none
  let s ← (s.openBlock s.here.column s.tokens.length .blockSequence s.here).dropKey
  some ({ s with keyAllowed := true }.take .blockEntry 1)

def fetchKey (s : Scan) : Option Scan := do
  if !s.inFlow && !s.keyAllowed then none
  let s ← (s.openBlock s.here.column s.tokens.length .blockMapping s.here).dropKey
  some ({ s with keyAllowed := !s.inFlow }.take .key 1)

def fetchValue (s : Scan) : Option Scan := do
  match s.keys with
  | some k :: rest =>
    let s := s.insert k.number .key k.place
    let s := s.openBlock k.place.column k.number .blockMapping k.place
    some ({ s with keys := none :: rest, keyAllowed := false }.take .value 1)
  | _ =>
    if !s.inFlow && !s.keyAllowed then none
    let s := s.openBlock s.here.column s.tokens.length .blockMapping s.here
    some ({ s with keyAllowed := !s.inFlow }.take .value 1)

def fetchAnchor (s : Scan) (kind : String → TokenKind) : Option Scan := do
  let start := s.here
  let s ← s.noteKey
  let (name, c) ← anchorName s.cursor.skip
  some ({ s with cursor := c, keyAllowed := false }.push (kind name) start)

def fetchTag (s : Scan) : Option Scan := do
  let start := s.here
  let s ← s.noteKey
  let (handle, suffix, c) ← tagParts s.cursor
  if c.blankOrEnd 0 || (s.inFlow && c.isAt ',') then
    some ({ s with cursor := c, keyAllowed := false }.push (.tag handle suffix) start)
  else none

def fetchBlockScalar (s : Scan) (literal : Bool) : Option Scan := do
  let start := s.here
  let s ← s.dropKey
  let (text, stop, c) ← blockScalar literal s.indent s.cursor.skip
  let token : Token := ⟨.scalar (String.ofList text) false, start, stop⟩
  some { s with cursor := c, keyAllowed := true, tokens := token :: s.tokens }

def fetchQuoted (s : Scan) (single : Bool) : Option Scan := do
  let start := s.here
  let s ← s.noteKey
  let c := s.cursor.skip
  let (text, c) ← quotedScalar single (c.rest.length + 1) [] c
  some ({ s with cursor := c, keyAllowed := false }.push
    (.scalar (String.ofList text) false) start)

def fetchPlain (s : Scan) : Option Scan := do
  let start := s.here
  let s ← s.noteKey
  let indent := (s.indent.map (· + 1)).getD 0
  let p ← plainScalar s.inFlow indent (s.cursor.rest.length + 1) [] start {} s.cursor
  let token : Token := ⟨.scalar (String.ofList p.text) true, start, p.stop⟩
  some { s with cursor := p.cursor, keyAllowed := p.broken, tokens := token :: s.tokens }

def fetchEnd (s : Scan) : Option Scan := do
  let p := s.here
  let place := if p.column = 0 then p else ⟨p.index, p.line + 1, 0⟩
  let s := { s with cursor := { s.cursor with place } }
  let s ← (s.close none).dropKey
  some ({ s with keyAllowed := false }.push .streamEnd place)

/-- Whether a plain scalar may start with a character, given what follows. -/
def startsPlain (s : Scan) (ch : Char) : Bool :=
  !(isBlank ch || "-?:,[]\x7b\x7d#&*!|>'\"%@`".toList.contains ch) ||
    (ch = '-' && !((s.cursor.ahead? 1).any isBlank)) ||
    (!s.inFlow && (ch = '?' || ch = ':') && !s.cursor.blankOrEnd 1)

/-- The token that starts at the next character. -/
def fetch (s : Scan) (ch : Char) : Option Scan :=
  let c := s.cursor
  if c.place.column = 0 && ch = '%' then s.fetchDirective
  else if c.isMarker '-' then s.fetchMarker .documentStart
  else if c.isMarker '.' then s.fetchMarker .documentEnd
  else if ch = '[' then s.fetchOpen .flowSequence
  else if ch = '{' then s.fetchOpen .flowMapping
  else if ch = ']' then s.fetchClose .flowSequenceEnd
  else if ch = '}' then s.fetchClose .flowMappingEnd
  else if ch = ',' then s.fetchFlowEntry
  else if ch = '-' && c.blankOrEnd 1 then s.fetchBlockEntry
  else if ch = '?' && (s.inFlow || c.blankOrEnd 1) then s.fetchKey
  else if ch = ':' && (s.inFlow || c.blankOrEnd 1) then s.fetchValue
  else if ch = '*' then s.fetchAnchor .alias
  else if ch = '&' then s.fetchAnchor .anchor
  else if ch = '!' then s.fetchTag
  else if ch = '|' && !s.inFlow then s.fetchBlockScalar true
  else if ch = '>' && !s.inFlow then s.fetchBlockScalar false
  else if ch = '\'' then s.fetchQuoted true
  else if ch = '"' then s.fetchQuoted false
  else if s.startsPlain ch then s.fetchPlain
  else none

def next (s : Scan) : Option Scan := do
  let s ← (toToken (s.cursor.rest.length + 1) s).dropStale
  let s := s.close (some s.here.column)
  match s.cursor.peek? with
  | none => s.fetchEnd
  | some ch => s.fetch ch

/-- The tokens that no later one can change any more. -/
def settled (s : Scan) : List Token :=
  match (s.keys.filterMap fun k => k.map (·.number)).min? with
  | none => s.tokens.reverse
  | some n => s.tokens.reverse.take n

/-- Goes on to the end of the text or to its first fault. -/
def run : Nat → Scan → List Token
  | 0, s => s.settled
  | fuel + 1, s =>
    match s.next with
    | none => s.settled
    | some s' =>
      if s'.tokens.head?.any (·.kind = .streamEnd) then s'.tokens.reverse else run fuel s'

end Scan

/-- The tokens of a text, the end of the stream last unless the text is broken. -/
def tokens (text : String) : List Token :=
  let chars := text.toList
  let body := if chars.head? = some byteOrderMark then chars.tail else chars
  if body.all isAllowed then Scan.run (body.length + 2) (.ofChars body) else []

end DataPipeline.Yaml
