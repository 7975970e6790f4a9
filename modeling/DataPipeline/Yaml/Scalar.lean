import DataPipeline.Yaml.Cursor

namespace DataPipeline.Yaml

/-- Blanks and line breaks between two words: the blanks of the first line, and once a line has
ended, the text of the first break and of the others. -/
structure Gap where
  blanks : List Char := []
  broken : Bool := false
  first : List Char := []
  others : List Char := []
  deriving Inhabited, Repr

namespace Gap

/-- The text a gap stands for: one line break is a space, more are one fewer. -/
def text (g : Gap) : List Char :=
  if !g.broken then g.blanks
  else if g.first = ['\n'] then (if g.others.isEmpty then [' '] else g.others)
  else g.first ++ g.others

/-- Reads a gap; a tab may not stand before column `indent` once a line has ended. -/
def read (indent : Nat) : Nat → Gap → Cursor → Option (Gap × Cursor)
  | 0, g, c => some (g, c)
  | fuel + 1, g, c =>
    match c.peek? with
    | none => some (g, c)
    | some ch =>
      if isBlank ch then
        if g.broken && ch = '\t' && c.place.column < indent then none
        else if g.broken then read indent fuel g c.skip
        else read indent fuel { g with blanks := g.blanks ++ [ch] } c.skip
      else if isBreak ch then
        let (text, c) := c.readBreak
        if g.broken then read indent fuel { g with others := g.others ++ text } c
        else read indent fuel { g with blanks := [], broken := true, first := text } c
      else some (g, c)

end Gap

/-- The characters that end a plain word inside brackets. -/
def endsFlowWord (ch : Char) : Bool := ch = ',' || ch = '[' || ch = ']' || ch = '{' || ch = '}'

/-- Reads up to a blank or a mark; none where a colon runs into a bracket. -/
def plainWord (flow : Bool) : Nat → List Char → Cursor → Option (List Char × Cursor)
  | 0, acc, c => some (acc.reverse, c)
  | fuel + 1, acc, c =>
    match c.peek? with
    | none => some (acc.reverse, c)
    | some ch =>
      if isBlank ch || isBreak ch then some (acc.reverse, c)
      else if flow && ch = ':' && (c.ahead? 1).any (fun x => endsFlowWord x || x = '?') then
        none
      else if (ch = ':' && c.blankOrEnd 1) || (flow && endsFlowWord ch) then
        some (acc.reverse, c)
      else plainWord flow fuel (ch :: acc) c.skip

/-- A scalar's text, the end of its last character, the cursor after it, and whether a line has
ended since. -/
structure PlainText where
  text : List Char
  stop : Place
  cursor : Cursor
  broken : Bool
  deriving Inhabited

/-- Reads a plain scalar whose lines after the first start at column `indent` or later. -/
def plainScalar (flow : Bool) (indent : Nat) :
    Nat → List Char → Place → Gap → Cursor → Option PlainText
  | 0, _, _, _, _ => none
  | fuel + 1, acc, stop, g, c => do
    if c.atMarker || c.isAt '#' then some ⟨acc, stop, c, g.broken⟩
    else
      let (word, c) ← plainWord flow (c.rest.length + 1) [] c
      let (acc, stop, g) :=
        if word.isEmpty then (acc, stop, g) else (acc ++ g.text ++ word, c.place, {})
      if !(c.peek?.any fun ch => isBlank ch || isBreak ch) then some ⟨acc, stop, c, g.broken⟩
      else
        let (g, c) ← g.read indent (c.rest.length + 1) c
        if !flow && c.place.column < indent then some ⟨acc, stop, c, g.broken⟩
        else plainScalar flow indent fuel acc stop g c

def hexDigit? (c : Char) : Option Nat :=
  if '0' ≤ c ∧ c ≤ '9' then some (c.toNat - 48)
  else if 'a' ≤ c ∧ c ≤ 'f' then some (c.toNat - 87)
  else if 'A' ≤ c ∧ c ≤ 'F' then some (c.toNat - 55)
  else none

/-- What a backslash and one character stand for. -/
def escaped? : Char → Option Char
  | '0' => some '\x00'
  | 'a' => some '\x07'
  | 'b' => some '\x08'
  | 't' | '\t' => some '\t'
  | 'n' => some '\n'
  | 'v' => some '\x0b'
  | 'f' => some '\x0c'
  | 'r' => some '\r'
  | 'e' => some '\x1b'
  | ' ' => some ' '
  | '"' => some '"'
  | '/' => some '/'
  | '\\' => some '\\'
  | 'N' => some '\u0085'
  | '_' => some '\u00A0'
  | 'L' => some '\u2028'
  | 'P' => some '\u2029'
  | _ => none

/-- How many hexadecimal digits follow a backslash and one character. -/
def codeLength? : Char → Option Nat
  | 'x' => some 2
  | 'u' => some 4
  | 'U' => some 8
  | _ => none

/-- The character of an escape, at the character after the backslash. -/
def escape (c : Cursor) : Option (Char × Cursor) := do
  let ch ← c.peek?
  match escaped? ch, codeLength? ch with
  | some x, _ => some (x, c.skip)
  | none, some n =>
    let digits := c.skip.rest.take n
    if digits.length < n then none
    let values ← digits.mapM hexDigit?
    let code := values.foldl (fun acc d => acc * 16 + d) 0
    if (0xD800 ≤ code ∧ code ≤ 0xDFFF) ∨ 0x10FFFF < code then none
    else some (Char.ofNat code, c.skip.skipMany n)
  | none, none => none

/-- Reads up to a blank, a line break or the closing quote; the flag tells of an escaped line
break. -/
def quotedWord (single : Bool) : Nat → List Char → Cursor → Option (List Char × Bool × Cursor)
  | 0, _, _ => none
  | fuel + 1, acc, c =>
    match c.peek? with
    | none => some (acc.reverse, false, c)
    | some ch =>
      if isBlank ch || isBreak ch then some (acc.reverse, false, c)
      else if single then
        if ch = '\'' then
          if c.ahead? 1 = some '\'' then quotedWord single fuel ('\'' :: acc) c.skip.skip
          else some (acc.reverse, false, c)
        else quotedWord single fuel (ch :: acc) c.skip
      else if ch = '"' then some (acc.reverse, false, c)
      else if ch = '\\' then
        if (c.ahead? 1).any isBreak then some (acc.reverse, true, c.skip.readBreak.2)
        else do
          let (x, c) ← escape c.skip
          quotedWord single fuel (x :: acc) c
      else quotedWord single fuel (ch :: acc) c.skip

/-- Reads a quoted scalar after its opening quote. -/
def quotedScalar (single : Bool) : Nat → List Char → Cursor → Option (List Char × Cursor)
  | 0, _, _ => none
  | fuel + 1, acc, c => do
    if c.atMarker || c.peek?.isNone then none
    else
      let (word, broken, c) ← quotedWord single (c.rest.length + 1) [] c
      let acc := acc ++ word
      if c.isAt (if single then '\'' else '"') then some (acc, c.skip)
      else
        let (g, c) ← Gap.read 0 (c.rest.length + 1) { broken } c
        quotedScalar single fuel (acc ++ g.text) c

/-- What happens to the line breaks at the end of a block. -/
inductive Chomping where
  | strip
  | clip
  | keep
  deriving DecidableEq, Inhabited, Repr

def Chomping.ofChar? : Char → Option Chomping
  | '+' => some .keep
  | '-' => some .strip
  | _ => none

/-- The digit and the sign after a block's mark, in either order. -/
def blockHeader (c : Cursor) : Option (Chomping × Nat × Cursor) :=
  let chomping (c : Cursor) : Option Chomping := c.peek?.bind Chomping.ofChar?
  let digit (c : Cursor) : Option Nat :=
    c.peek?.bind fun ch => if ch.isDigit then some (ch.toNat - 48) else none
  match chomping c, digit c with
  | some k, _ =>
    match digit c.skip with
    | some 0 => none
    | some n => some (k, n, c.skip.skip)
    | none => some (k, 0, c.skip)
  | none, some 0 => none
  | none, some n =>
    match chomping c.skip with
    | some k => some (k, n, c.skip.skip)
    | none => some (.clip, n, c.skip)
  | none, none => some (.clip, 0, c)

/-- Past blanks and a comment to the next line; none if anything else is on this one. -/
def restOfLine (c : Cursor) : Option Cursor :=
  let c := (c.skipWhile isBlank).2
  let c := if c.isAt '#' then (c.skipWhile fun ch => !isBreak ch).2 else c
  if c.breakOrEnd 0 then some c.readBreak.2 else none

/-- The empty lines before a line of a block, and the greatest column that spaces reached on
them. An `indent` of zero is not known yet. -/
structure BlockLead where
  breaks : List Char
  reach : Nat
  stop : Place
  cursor : Cursor
  deriving Inhabited

def blockLead (indent : Nat) : Nat → BlockLead → Option BlockLead
  | 0, lead => some lead
  | fuel + 1, lead =>
    let c := lead.cursor
    let spaces := (c.rest.takeWhile (· = ' ')).length
    let c := c.skipMany (if indent = 0 then spaces else min spaces (indent - c.place.column))
    let lead := { lead with cursor := c, reach := max lead.reach c.place.column }
    if (indent = 0 || c.place.column < indent) && c.isAt '\t' then none
    else if c.peek?.any isBreak then
      let (text, c) := c.readBreak
      blockLead indent fuel
        { lead with breaks := lead.breaks ++ text, stop := c.place, cursor := c }
    else some lead

/-- The lines of a block from the given one on. -/
structure BlockText where
  text : List Char
  /-- The break after the last line, and the breaks after that. -/
  last : List Char
  lead : BlockLead
  /-- Whether the last line started with a blank. -/
  blank : Bool
  deriving Inhabited

/-- What joins a line to those before it. -/
def BlockText.join (b : BlockText) (literal blank : Bool) : List Char :=
  let first :=
    if !literal && b.last.head? = some '\n' && !b.blank && !blank then
      if b.lead.breaks.isEmpty then [' '] else []
    else b.last
  first ++ b.lead.breaks

def blockLines (literal : Bool) (indent : Nat) : Nat → BlockText → Option BlockText
  | 0, b => some b
  | fuel + 1, b => do
    let c := b.lead.cursor
    if c.place.column = indent && c.peek?.isSome then
      let blank := c.peek?.any isBlank
      let (line, c) := c.skipWhile fun ch => !isBreak ch
      let (last, c) := c.readBreak
      let lead ← blockLead indent (c.rest.length + 1) ⟨[], 0, c.place, c⟩
      blockLines literal indent fuel ⟨b.text ++ b.join literal blank ++ line, last, lead, blank⟩
    else some b

/-- Reads a block scalar after its mark; `parent` is the column of the block around it, none at
the root. The text, the end and the cursor after it. -/
def blockScalar (literal : Bool) (parent : Option Nat) (c : Cursor) :
    Option (List Char × Place × Cursor) := do
  let (chomping, digit, c) ← blockHeader c
  let c ← restOfLine c
  let base := (parent.map (· + 1)).getD 0
  let given := if digit = 0 then 0 else (parent.getD 0) + digit
  let lead ← blockLead given (c.rest.length + 1) ⟨[], 0, c.place, c⟩
  let indent := if given = 0 then max (max lead.reach base) 1 else given
  let b ← blockLines literal indent (c.rest.length + 1) ⟨[], [], lead, false⟩
  let tail := match chomping with
    | .strip => []
    | .clip => b.last
    | .keep => b.last ++ b.lead.breaks
  some (b.text ++ tail, b.lead.stop, b.lead.cursor)

end DataPipeline.Yaml
