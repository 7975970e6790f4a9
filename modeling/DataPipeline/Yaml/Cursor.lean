namespace DataPipeline.Yaml

structure Place where
  index : Nat
  line : Nat
  column : Nat
  deriving DecidableEq, Inhabited, Repr

/-- The rest of a text and the place reached in it. -/
structure Cursor where
  rest : List Char
  place : Place
  deriving Inhabited, Repr

def isBreak (c : Char) : Bool :=
  c = '\n' || c = '\r' || c = '\u0085' || c = '\u2028' || c = '\u2029'

def isBlank (c : Char) : Bool := c = ' ' || c = '\t'

/-- A character of names: of anchors, tag handles and directives. -/
def isWord (c : Char) : Bool := c.isAlphanum || c = '-' || c = '_'

def byteOrderMark : Char := '\uFEFF'

/-- The characters a YAML text may hold. -/
def isAllowed (c : Char) : Bool :=
  let n := c.toNat
  c = '\t' || c = '\n' || c = '\r' || (0x20 ≤ n && n ≤ 0x7E) || n = 0x85 ||
    (0xA0 ≤ n && n ≤ 0xFFFD) || 0x10000 ≤ n

namespace Cursor

def ofChars (text : List Char) : Cursor := ⟨text, ⟨0, 0, 0⟩⟩

def peek? (c : Cursor) : Option Char := c.rest.head?

/-- The character some places ahead. -/
def ahead? (c : Cursor) (n : Nat) : Option Char := c.rest[n]?

def isAt (c : Cursor) (ch : Char) : Bool := c.peek? == some ch

/-- Whether a line break or the end is some places ahead. -/
def breakOrEnd (c : Cursor) (n : Nat) : Bool := (c.ahead? n).all isBreak

/-- Whether a blank, a line break or the end is some places ahead. -/
def blankOrEnd (c : Cursor) (n : Nat) : Bool :=
  (c.ahead? n).all fun ch => isBlank ch || isBreak ch

/-- Past one character that is no line break. -/
def skip (c : Cursor) : Cursor :=
  match c.rest with
  | [] => c
  | _ :: rest => ⟨rest,
      { c.place with index := c.place.index + 1, column := c.place.column + 1 }⟩

def skipMany (c : Cursor) : Nat → Cursor
  | 0 => c
  | n + 1 => c.skip.skipMany n

/-- Past characters of a class that holds no line break. -/
def skipWhile (p : Char → Bool) (c : Cursor) : List Char × Cursor :=
  let taken := c.rest.takeWhile p
  (taken, c.skipMany taken.length)

/-- Past a line break, and the text it stands for. -/
def readBreak (c : Cursor) : List Char × Cursor :=
  let line (width : Nat) (rest : List Char) : Cursor :=
    ⟨rest, ⟨c.place.index + width, c.place.line + 1, 0⟩⟩
  match c.rest with
  | '\r' :: '\n' :: rest => (['\n'], line 2 rest)
  | ch :: rest =>
    if ch = '\u2028' ∨ ch = '\u2029' then ([ch], line 1 rest)
    else if isBreak ch then (['\n'], line 1 rest)
    else ([], c)
  | [] => ([], c)

/-- Whether three equal characters and a blank stand at the start of the line. -/
def isMarker (c : Cursor) (ch : Char) : Bool :=
  c.place.column == 0 && c.rest.take 3 == [ch, ch, ch] && c.blankOrEnd 3

/-- Whether a mark between documents stands here. -/
def atMarker (c : Cursor) : Bool := c.isMarker '-' || c.isMarker '.'

end Cursor

end DataPipeline.Yaml
