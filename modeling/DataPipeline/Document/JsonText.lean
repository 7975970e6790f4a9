import DataPipeline.Document.Reading
import DataPipeline.Json.Numeral

namespace DataPipeline.Document

/-- The rest of a text and the place reached in it. -/
structure Cursor where
  rest : List Char
  mark : Mark

def Mark.past (m : Mark) (c : Char) : Mark :=
  if c = '\n' then ⟨m.line + 1, 0⟩ else ⟨m.line, m.column + c.utf8Size⟩

namespace Cursor

def next (c : Cursor) : Cursor :=
  match c.rest with
  | [] => c
  | ch :: rest => ⟨rest, c.mark.past ch⟩

/-- The place one byte ahead, or here at the end of the text. -/
def ahead (c : Cursor) : Mark :=
  match c.rest with
  | [] => c.mark
  | '\n' :: _ => ⟨c.mark.line + 1, 0⟩
  | _ => ⟨c.mark.line, c.mark.column + 1⟩

def isBlank (c : Char) : Bool := c = ' ' || c = '\n' || c = '\t' || c = '\r'

/-- The cursor after the characters of a class. -/
def pastWhile (p : Char → Bool) (c : Cursor) : Cursor :=
  ⟨c.rest.dropWhile p, (c.rest.takeWhile p).foldl Mark.past c.mark⟩

def blanks (c : Cursor) : Cursor := c.pastWhile isBlank

/-- The end of the text. -/
def stop (c : Cursor) : Mark := c.rest.foldl Mark.past c.mark

/-- The place some bytes ahead, none if the text ends before it. -/
def bytesAhead (m : Mark) : Nat → List Char → Option Mark
  | 0, _ => some m
  | _ + 1, [] => none
  | n + 1, c :: rest =>
    if c.utf8Size ≤ n + 1 then bytesAhead (m.past c) (n + 1 - c.utf8Size) rest
    else some ⟨m.line, m.column + (n + 1)⟩

end Cursor

namespace JsonText

def located (cause : Malformed) (place : Mark) : Located := ⟨.malformed cause, place⟩

def hexValue? (c : Char) : Option Nat :=
  if '0' ≤ c ∧ c ≤ '9' then some (c.toNat - 48)
  else if 'a' ≤ c ∧ c ≤ 'f' then some (c.toNat - 87)
  else if 'A' ≤ c ∧ c ≤ 'F' then some (c.toNat - 55)
  else none

/-- Four hexadecimal digits. -/
def fourHex (c : Cursor) : Except Located (Nat × Cursor) :=
  match Cursor.bytesAhead c.mark 4 c.rest with
  | none => .error (located .eofInString c.stop)
  | some place =>
    match (c.rest.take 4).mapM hexValue? with
    | some [a, b, d, e] => .ok (((a * 16 + b) * 16 + d) * 16 + e, c.next.next.next.next)
    | _ => .error (located .invalidEscape place)

/-- What a backslash and one character stand for. -/
def escaped? : Char → Option Char
  | '"' => some '"'
  | '\\' => some '\\'
  | '/' => some '/'
  | 'b' => some '\x08'
  | 'f' => some '\x0c'
  | 'n' => some '\n'
  | 'r' => some '\r'
  | 't' => some '\t'
  | _ => none

/-- The next character has to be the given one. -/
def expect (ch : Char) (c : Cursor) : Except Located Cursor :=
  match c.rest with
  | [] => .error (located .eofInString c.mark)
  | x :: _ => if x = ch then .ok c.next else .error (located .unfinishedSurrogate c.ahead)

/-- The character of a code unit escape, of two such escapes where one is a leading
surrogate. -/
def unitEscape (c : Cursor) : Except Located (Char × Cursor) := do
  let (n, c) ← fourHex c
  if 0xDC00 ≤ n ∧ n ≤ 0xDFFF then .error (located .loneSurrogate c.mark)
  else if n < 0xD800 ∨ 0xDBFF < n then .ok (Char.ofNat n, c)
  else
    let c ← expect '\\' c
    let c ← expect 'u' c
    let (low, c) ← fourHex c
    if low < 0xDC00 ∨ 0xDFFF < low then .error (located .loneSurrogate c.mark)
    else .ok (Char.ofNat (0x10000 + (n - 0xD800) * 1024 + (low - 0xDC00)), c)

/-- Reads a string after its opening quote; `fuel` bounds its length. -/
def readString : Nat → List Char → Cursor → Except Located (String × Cursor)
  | 0, _, c => .error (located .eofInString c.mark)
  | fuel + 1, acc, c =>
    match c.rest with
    | [] => .error (located .eofInString c.mark)
    | '"' :: _ => .ok (String.ofList acc.reverse, c.next)
    | '\\' :: _ =>
      let c := c.next
      match c.rest with
      | [] => .error (located .eofInString c.mark)
      | 'u' :: _ => do
        let (ch, c) ← unitEscape c.next
        readString fuel (ch :: acc) c
      | e :: _ =>
        match escaped? e with
        | some ch => readString fuel (ch :: acc) c.next
        | none => .error (located .invalidEscape c.ahead)
    | ch :: _ =>
      if ch.toNat < 32 then .error (located .controlCharacter c.ahead)
      else readString fuel (ch :: acc) c.next

/-- Skips a string after its opening quote: surrogates may stand alone. -/
def skipString : Nat → Cursor → Except Located Cursor
  | 0, c => .error (located .eofInString c.mark)
  | fuel + 1, c =>
    match c.rest with
    | [] => .error (located .eofInString c.mark)
    | '"' :: _ => .ok c.next
    | '\\' :: _ =>
      let c := c.next
      match c.rest with
      | [] => .error (located .eofInString c.mark)
      | 'u' :: _ => do
        let (_, c) ← fourHex c.next
        skipString fuel c
      | e :: _ =>
        if (escaped? e).isSome then skipString fuel c.next
        else .error (located .invalidEscape c.ahead)
    | ch :: _ =>
      if ch.toNat < 32 then .error (located .controlCharacter c.mark)
      else skipString fuel c.next

/-- A string after its opening quote, which stands at `start`, and the cursor after it. -/
def stringDoc (start c : Cursor) : Doc × Option Cursor :=
  let fuel := c.rest.length + 1
  match readString fuel [] c with
  | .ok (s, rest) =>
    (.scalar (.typed (.string s)) ⟨rest.mark, start.ahead, rest.mark⟩, some rest)
  | .error e =>
    match skipString fuel c with
    | .ok rest => (.scalar (.unreadable e) ⟨rest.mark, start.ahead, rest.mark⟩, some rest)
    | .error skipped => (.broken e skipped start.ahead, none)

/-- A run of digits that must not be empty; fails at the cursor where one is missing. -/
def digits (c : Cursor) : Except Cursor (List Char × Cursor) :=
  match c.rest.takeWhile Char.isDigit with
  | [] => .error c
  | ds => .ok (ds, c.pastWhile Char.isDigit)

def fraction (c : Cursor) : Except Cursor (Option (List Char) × Cursor) :=
  match c.rest with
  | '.' :: _ => do
    let (ds, c) ← digits c.next
    .ok (some ds, c)
  | _ => .ok (none, c)

def exponentSign (c : Cursor) : Bool × Cursor :=
  match c.rest with
  | '-' :: _ => (true, c.next)
  | '+' :: _ => (false, c.next)
  | _ => (false, c)

def exponent (c : Cursor) : Except Cursor (Option (Bool × List Char) × Cursor) :=
  match c.rest with
  | 'e' :: _ | 'E' :: _ => do
    let (down, c) := exponentSign c.next
    let (ds, c) ← digits c
    .ok (some (down, ds), c)
  | _ => .ok (none, c)

/-- A number at its sign or first digit. -/
def numeral (c : Cursor) : Except Cursor (Json.Numeral × Cursor) := do
  let negative := c.rest.head? = some '-'
  let c := if negative then c.next else c
  let (whole, rest) ← digits c
  if whole.head? = some '0' ∧ 1 < whole.length then .error c.next
  else
    let (fraction, rest) ← fraction rest
    let (exponent, rest) ← exponent rest
    .ok (⟨negative, whole, fraction, exponent⟩, rest)

def numberDoc (c : Cursor) : Doc × Option Cursor :=
  match numeral c with
  | .error e =>
    let cause : Malformed := if e.rest.isEmpty then .eofInValue else .invalidNumber
    (.broken (located cause e.ahead) (located .invalidNumber e.ahead) c.ahead, none)
  | .ok (numeral, rest) =>
    let span : Span := ⟨rest.mark, c.ahead, rest.mark⟩
    match numeral.value with
    | .ok (.int n) => (.scalar (.typed (.int n)) span, some rest)
    | .ok (.double x) => (.scalar (.typed (.double x (Number.double x).text)) span, some rest)
    | .error unread =>
      let place : Mark := ⟨rest.mark.line, rest.mark.column - unread⟩
      (.scalar (.unreadable (located .numberOutOfRange place)) span, some rest)

/-- A fixed word from its second letter on. -/
def word : List Char → Cursor → Except Located Cursor
  | [], c => .ok c
  | w :: rest, c =>
    match c.rest with
    | [] => .error (located .eofInValue c.mark)
    | x :: _ => if x = w then word rest c.next else .error (located .expectedIdent c.ahead)

def wordDoc (letters : List Char) (found : Found) (c : Cursor) : Doc × Option Cursor :=
  match word letters c.next with
  | .ok rest => (.scalar (.typed found) ⟨rest.mark, c.ahead, rest.mark⟩, some rest)
  | .error e => (.broken e e c.ahead, none)

/-- The same fault for readers and for those who skip. -/
def brokenAt (cause : Malformed) (c : Cursor) : Doc × Option Cursor :=
  (.broken (located cause c.ahead) (located cause c.ahead) c.ahead, none)

def cutAt (c : Cursor) (read skipped : Malformed) : Ending :=
  .cut (located read c.ahead) (located skipped c.ahead)

/-- The colon after a key. -/
def colon (c : Cursor) : Except (Doc × Option Cursor) Cursor :=
  match c.rest with
  | [] => .error (brokenAt .eofInObject c)
  | ':' :: _ => .ok c.next
  | _ => .error (brokenAt .expectedColon c)

/-- The place after a key, past the brace of a map that ends there. -/
def pastBrace (c : Cursor) : Mark :=
  match c.rest with
  | '}' :: _ => c.ahead
  | _ => c.mark

mutual

/-- The value after any blanks, and the cursor after it if the text can be read on. -/
def value : Nat → Cursor → Doc × Option Cursor
  | 0, c => brokenAt .expectedValue c
  | fuel + 1, c =>
    let c := c.blanks
    match c.rest with
    | [] => brokenAt .eofInValue c
    | 'n' :: _ => wordDoc ['u', 'l', 'l'] .null c
    | 't' :: _ => wordDoc ['r', 'u', 'e'] (.bool true) c
    | 'f' :: _ => wordDoc ['a', 'l', 's', 'e'] (.bool false) c
    | '"' :: _ => stringDoc c c.next
    | '[' :: _ =>
      let (ds, ending, rest?) := items fuel true c.next
      let stop := (rest?.map (·.mark)).getD c.mark
      (.sequence ds ending false ⟨c.mark, c.ahead, stop⟩, rest?)
    | '{' :: _ =>
      let (es, ending, rest?) := entries fuel true c.next
      let stop := (rest?.map (·.mark)).getD c.mark
      (.mapping es ending false ⟨c.mark, c.ahead, stop⟩, rest?)
    | ch :: _ => if ch = '-' ∨ ch.isDigit then numberDoc c else brokenAt .expectedValue c

/-- The items up to the closing bracket and the cursor after it. -/
def items : Nat → Bool → Cursor → List Doc × Ending × Option Cursor
  | 0, _, _ => ([], .closed, none)
  | fuel + 1, first, c =>
    let c := c.blanks
    match c.rest with
    | [] => ([], cutAt c .eofInList .eofInList, none)
    | ']' :: _ => ([], .closed, some c.next)
    | ch :: _ =>
      if first then itemsFrom fuel c
      else if ch = ',' then
        let c := c.next.blanks
        match c.rest with
        | [] => ([], cutAt c .eofInValue .eofInValue, none)
        | ']' :: _ => ([], cutAt c .trailingComma .expectedValue, none)
        | _ => itemsFrom fuel c
      else ([], cutAt c .expectedListComma .expectedListComma, none)

/-- An item and those after it. -/
def itemsFrom : Nat → Cursor → List Doc × Ending × Option Cursor
  | 0, _ => ([], .closed, none)
  | fuel + 1, c =>
    match value fuel c with
    | (d, none) => ([d], .closed, none)
    | (d, some c) =>
      let (ds, ending, rest?) := items fuel false c
      (d :: ds, ending, rest?)

/-- The entries up to the closing brace and the cursor after it. -/
def entries : Nat → Bool → Cursor → List Entry × Ending × Option Cursor
  | 0, _, _ => ([], .closed, none)
  | fuel + 1, first, c =>
    let c := c.blanks
    match c.rest with
    | [] => ([], cutAt c .eofInObject .eofInObject, none)
    | '}' :: _ => ([], .closed, some c.next)
    | ch :: _ =>
      if first then
        if ch = '"' then entriesFrom fuel c else ([], cutAt c .keyNotString .keyNotString, none)
      else if ch = ',' then
        let c := c.next.blanks
        match c.rest with
        | [] => ([], cutAt c .eofInValue .eofInObject, none)
        | '"' :: _ => entriesFrom fuel c
        | '}' :: _ => ([], cutAt c .trailingComma .keyNotString, none)
        | _ => ([], cutAt c .keyNotString .keyNotString, none)
      else ([], cutAt c .expectedObjectComma .expectedObjectComma, none)

/-- An entry at its key's opening quote and those after it. -/
def entriesFrom : Nat → Cursor → List Entry × Ending × Option Cursor
  | 0, _ => ([], .closed, none)
  | fuel + 1, c =>
    match stringDoc c c.next with
    | (key, none) => ([.mk key c.mark key], .closed, none)
    | (key, some c) =>
      let c := c.blanks
      let place := pastBrace c
      let found :=
        match colon c with
        | .error broken => broken
        | .ok after => value fuel after
      match found with
      | (v, none) => ([.mk key place v], .closed, none)
      | (v, some rest) =>
        let (es, ending, rest?) := entries fuel false rest
        (.mk key place v :: es, ending, rest?)

end

end JsonText

/-- A JSON text as a document, and what follows the document where nothing may. -/
def Doc.ofJsonText (text : String) : Doc × Option Located :=
  let chars := text.toList
  match JsonText.value (3 * chars.length + 3) ⟨chars, ⟨1, 0⟩⟩ with
  | (d, none) => (d, none)
  | (d, some c) =>
    let c := c.blanks
    if c.rest.isEmpty then (d, none)
    else (d, some (JsonText.located .trailingCharacters c.ahead))

/-- Reads data from a JSON text, of at most 127 nested containers. -/
def readJsonText {α : Type} (read : Reading → Doc → Read α) (text : String) : Read α := do
  let r : Reading := { format := .json, anchors := fun _ => none, depth := 127 }
  let (d, trailing) := Doc.ofJsonText text
  let a ← read r d
  match trailing with
  | none => .ok a
  | some e => r.fail e.fault e.place

/-- Reads data from a JSON value of any depth. -/
def readJsonValue {α : Type} (read : Reading → Doc → Read α) (v : Json) : Read α :=
  read { format := .value, anchors := fun _ => none, depth := v.depth + 1 } (Doc.ofJson v)

end DataPipeline.Document
