import DataPipeline.Document.Reading
import DataPipeline.Document.Repetition
import DataPipeline.Yaml.Plain
import DataPipeline.Yaml.Token

namespace DataPipeline.Yaml

open Document

def boolTag : String := "tag:yaml.org,2002:bool"
def intTag : String := "tag:yaml.org,2002:int"
def floatTag : String := "tag:yaml.org,2002:float"
def nullTag : String := "tag:yaml.org,2002:null"

def markOf (p : Place) : Mark := ⟨p.line + 1, p.column + 1⟩

/-- A tag of the document's own, as opposed to one of the format. -/
def isCustom (tag : Option String) : Bool := tag.any fun t => t.toList.head? = some '!'

/-- What a scalar is found to be. A tag of the format insists on its type. -/
def scalarFound (tag : Option String) (text : String) (plain : Bool) (place : Mark) :
    Except Located Found :=
  let insist (found : Option Found) (expected : String) : Except Located Found :=
    match found with
    | some f => .ok f
    | none => .error ⟨.wrongValue (.string text) expected, place⟩
  if tag = some boolTag then insist ((boolOf? text).map .bool) "a boolean"
  else if tag = some intTag then insist ((integerOf? text).map .int) "an integer"
  else if tag = some floatTag then insist ((doubleOf? text).map foundDouble) "a float"
  else if tag = some nullTag then insist (if isNullText text then some .unit else none) "null"
  else if plain && (tag.isNone || isCustom tag) then .ok (plainFound text)
  else .ok (.string text)

/-- Whether a scalar stands for an absent option. -/
def scalarAbsent (tag : Option String) (text : String) (plain : Bool) (place : Mark) :
    Except Located Bool :=
  if !plain then .ok false
  else if tag.isNone then .ok (text.isEmpty || isNullText text)
  else if tag = some nullTag then
    if isNullText text then .ok true else .error ⟨.wrongValue (.string text) "null", place⟩
  else .ok false

def scalarDoc (tag : Option String) (text : String) (plain : Bool) (place : Place) : Doc :=
  let mark := markOf place
  .scalar
    { found := scalarFound tag text plain mark
      text? := some text
      absent := scalarAbsent tag text plain mark
      hollow := plain && text.isEmpty
      custom := isCustom tag }
    ⟨mark, mark, mark⟩

/-- A scalar that is not written. -/
def emptyDoc (place : Place) : Doc := scalarDoc none "" true place

def fault : Located := ⟨.unreadable, default⟩

def brokenDoc : Doc := .broken fault fault default

def cutOff : Ending := .cut fault fault

/-- The tokens ahead, the directives in force, and the anchors met so far: each name has a
number, each number the nodes that bore it, with the count of tokens that followed the node's
first. -/
structure Build where
  tokens : List Token
  handles : List (String × String)
  names : List (String × Nat)
  nodes : List (Nat × Nat × Doc)
  deriving Inhabited

namespace Build

def peek? (b : Build) : Option Token := b.tokens.head?

def skip (b : Build) : Build := { b with tokens := b.tokens.tail }

def isAt (b : Build) (kinds : List TokenKind) : Bool :=
  b.peek?.any fun t => kinds.contains t.kind

/-- Gives a name a number: how many other names there are. -/
def name (b : Build) (anchor : String) : Nat × Build :=
  let number := b.names.length
  (number, { b with names := (anchor, number) :: b.names.filter (·.1 ≠ anchor) })

def number? (b : Build) (anchor : String) : Option Nat :=
  (b.names.find? (·.1 = anchor)).map (·.2)

/-- The node a number stands for: the one that started last. -/
def node? (b : Build) (number : Nat) : Option Doc :=
  let bearers := b.nodes.filter (·.1 = number)
  (bearers.map (·.2.1)).min?.bind fun last => (bearers.find? (·.2.1 = last)).map (·.2.2)

end Build

/-- A node's anchor and tag. -/
structure Properties where
  start : Place
  anchor : Option String := none
  tag : Option (String × String) := none
  deriving Inhabited

/-- Reads an anchor and a tag in either order; none where the tokens end. -/
def properties (b : Build) : Option (Properties × Build) := do
  let first ← b.peek?
  let p : Properties := { start := first.start }
  match first.kind with
  | .anchor name =>
    let b := b.skip
    let second ← b.peek?
    match second.kind with
    | .tag handle suffix => do
      let _ ← b.skip.peek?
      some ({ p with anchor := some name, tag := some (handle, suffix) }, b.skip)
    | _ => some ({ p with anchor := some name }, b)
  | .tag handle suffix =>
    let b := b.skip
    let second ← b.peek?
    match second.kind with
    | .anchor name => do
      let _ ← b.skip.peek?
      some ({ p with anchor := some name, tag := some (handle, suffix) }, b.skip)
    | _ => some ({ p with tag := some (handle, suffix) }, b)
  | _ => some (p, b)

/-- The tag as the directives in force spell it out; an unknown handle is a fault. -/
def resolveTag (handles : List (String × String)) :
    Option (String × String) → Option (Option String)
  | none => some none
  | some (handle, suffix) =>
    if handle.isEmpty then some (some suffix)
    else (handles.find? (·.1 = handle)).map fun d => some (d.2 ++ suffix)

/-- What was built and what is left to build from. -/
abbrev Built (α : Type) := α × Build

abbrev Items := List Doc × Ending × Build

abbrev Entries := List Entry × Ending × Build

/-- A fault: nothing after it is built. -/
def Build.broken (b : Build) : Built Doc := (brokenDoc, { b with tokens := [] })

def Build.cut {α : Type} (b : Build) : List α × Ending × Build :=
  ([], cutOff, { b with tokens := [] })

/-- An item and those that `rest` finds after it. -/
def followItem (item : Built Doc) (rest : Build → Items) : Items :=
  let (ds, ending, b) := rest item.2
  (item.1 :: ds, ending, b)

/-- An entry, its value found by `value`, and those that `rest` finds after it. -/
def followEntry (place : Mark) (key : Built Doc) (value : Build → Built Doc)
    (rest : Build → Entries) : Entries :=
  let (v, b) := value key.2
  let (es, ending, b) := rest b
  (.mk key.1 place v :: es, ending, b)

def spanAt (start : Place) : Span := ⟨markOf start, markOf start, markOf start⟩

/-- A node of an anchor or a tag alone. -/
def bare (p : Properties) (tag : Option String) (b : Build) : Built Doc :=
  if p.anchor.isSome || p.tag.isSome then (scalarDoc tag "" true p.start, b) else b.broken

/-- An empty node in front of the next token. -/
def emptyBefore (b : Build) : Built Doc :=
  match b.peek? with
  | none => b.broken
  | some t => (emptyDoc t.start, b)

mutual

/-- A node. Blocks may start only where `block` says so, a list at the level of its key only
where `level` does. -/
def node (block level : Bool) : Nat → Build → Built Doc
  | 0, b => b.broken
  | fuel + 1, b =>
    match b.peek? with
    | some ⟨.alias name, _, _⟩ =>
      match b.number? name with
      | some n => (.alias n, b.skip)
      | none => b.broken
    | _ =>
      match properties b with
      | none => b.broken
      | some (p, b) =>
        match resolveTag b.handles p.tag, p.anchor with
        | none, _ => b.broken
        | some tag, none => content block level p tag fuel b
        | some tag, some name =>
          let (number, b) := b.name name
          let (d, rest) := content block level p tag fuel b
          (d, { rest with nodes := (number, b.tokens.length, d) :: rest.nodes })

/-- The node after its anchor and tag. -/
def content (block level : Bool) (p : Properties) (tag : Option String) :
    Nat → Build → Built Doc
  | 0, b => b.broken
  | fuel + 1, b =>
    let sequence (items : Items) : Built Doc :=
      (.sequence items.1 items.2.1 (isCustom tag) (spanAt p.start), items.2.2)
    let mapping (entries : Entries) : Built Doc :=
      (.mapping entries.1 entries.2.1 (isCustom tag) (spanAt p.start), entries.2.2)
    match b.peek? with
    | none => b.broken
    | some ⟨.blockEntry, _, _⟩ => if level then sequence (levelItems fuel b) else bare p tag b
    | some ⟨.scalar text plain, _, _⟩ =>
      (scalarDoc (if tag = some "!" then none else tag) text plain p.start, b.skip)
    | some ⟨.flowSequence, _, _⟩ => sequence (flowItems true fuel b.skip)
    | some ⟨.flowMapping, _, _⟩ => mapping (flowEntries (markOf p.start) true fuel b.skip)
    | some ⟨.blockSequence, _, _⟩ =>
      if block then sequence (blockItems fuel b.skip) else bare p tag b
    | some ⟨.blockMapping, _, _⟩ =>
      if block then mapping (blockEntries (markOf p.start) fuel b.skip) else bare p tag b
    | some _ => bare p tag b

/-- The node after an indicator that ended at `place`, empty in front of one of the given
tokens. -/
def blockNode (ends : List TokenKind) (level : Bool) (place : Place) : Nat → Build → Built Doc
  | 0, b => b.broken
  | fuel + 1, b => if b.isAt ends then (emptyDoc place, b) else node true level fuel b

/-- A node inside brackets, empty in front of one of the given tokens. -/
def flowNode (ends : List TokenKind) : Nat → Build → Built Doc
  | 0, b => b.broken
  | fuel + 1, b => if b.isAt ends then emptyBefore b else node false false fuel b

/-- The items of a list at the level of its key. -/
def levelItems : Nat → Build → Items
  | 0, b => b.cut
  | fuel + 1, b =>
    match b.peek? with
    | none => b.cut
    | some t =>
      if t.kind = .blockEntry then
        followItem (blockNode [.blockEntry, .key, .value, .blockEnd] false t.stop fuel b.skip)
          (levelItems fuel)
      else ([], .closed, b)

def blockItems : Nat → Build → Items
  | 0, b => b.cut
  | fuel + 1, b =>
    match b.peek? with
    | none => b.cut
    | some t =>
      if t.kind = .blockEntry then
        followItem (blockNode [.blockEntry, .blockEnd] false t.stop fuel b.skip)
          (blockItems fuel)
      else if t.kind = .blockEnd then ([], .closed, b.skip)
      else b.cut

/-- The value of a block entry; one without a colon is empty. -/
def blockValue : Nat → Build → Built Doc
  | 0, b => b.broken
  | fuel + 1, b =>
    match b.peek? with
    | none => b.broken
    | some t =>
      if t.kind = .value then blockNode [.key, .value, .blockEnd] true t.stop fuel b.skip
      else (emptyDoc t.start, b)

def blockEntries (place : Mark) : Nat → Build → Entries
  | 0, b => b.cut
  | fuel + 1, b =>
    match b.peek? with
    | none => b.cut
    | some t =>
      if t.kind = .key then
        followEntry place (blockNode [.key, .value, .blockEnd] true t.stop fuel b.skip)
          (blockValue fuel) (blockEntries place fuel)
      else if t.kind = .blockEnd then ([], .closed, b.skip)
      else b.cut

/-- The value of an entry inside brackets that close with `close`. -/
def flowValue (close : TokenKind) : Nat → Build → Built Doc
  | 0, b => b.broken
  | fuel + 1, b =>
    if b.isAt [.value] then flowNode [.flowEntry, close] fuel b.skip else emptyBefore b

/-- A map of one entry inside a list, after the mark of its key. A key that is not written takes
the token in its place with it. -/
def pair (start : Token) : Nat → Build → Built Doc
  | 0, b => b.broken
  | fuel + 1, b =>
    let key : Built Doc :=
      if b.isAt [.value, .flowEntry, .flowSequenceEnd] then
        (emptyDoc ((b.peek?.map (·.stop)).getD start.stop), b.skip)
      else node false false fuel b
    let (es, ending, b) :=
      followEntry (markOf start.start) key (flowValue .flowSequenceEnd fuel)
        fun b => if b.tokens.isEmpty then b.cut else ([], .closed, b)
    (.mapping es ending false (spanAt start.start), b)

def flowItems (first : Bool) : Nat → Build → Items
  | 0, b => b.cut
  | fuel + 1, b =>
    if b.isAt [.flowSequenceEnd] then ([], .closed, b.skip)
    else if !first && !b.isAt [.flowEntry] then b.cut
    else
      let b := if first then b else b.skip
      match b.peek? with
      | none => b.cut
      | some t =>
        if t.kind = .key then followItem (pair t fuel b.skip) (flowItems false fuel)
        else if t.kind = .flowSequenceEnd then ([], .closed, b.skip)
        else followItem (node false false fuel b) (flowItems false fuel)

def flowEntries (place : Mark) (first : Bool) : Nat → Build → Entries
  | 0, b => b.cut
  | fuel + 1, b =>
    if b.isAt [.flowMappingEnd] then ([], .closed, b.skip)
    else if !first && !b.isAt [.flowEntry] then b.cut
    else
      let b := if first then b else b.skip
      match b.peek? with
      | none => b.cut
      | some t =>
        if t.kind = .key then
          followEntry place (flowNode [.value, .flowEntry, .flowMappingEnd] fuel b.skip)
            (flowValue .flowMappingEnd fuel) (flowEntries place false fuel)
        else if t.kind = .flowMappingEnd then ([], .closed, b.skip)
        else
          followEntry place (node false false fuel b) emptyBefore (flowEntries place false fuel)

end

def isDirective : TokenKind → Bool
  | .version .. | .tagDirective .. => true
  | _ => false

def standardHandles : List (String × String) := [("!", "!"), ("!!", "tag:yaml.org,2002:")]

/-- Reads directives: at most one version, which must be known, and one of each tag handle. -/
def directives : List Token → Bool → List (String × String) →
    Option (List (String × String) × List Token)
  | [], _, _ => none
  | t :: rest, versioned, handles =>
    match t.kind with
    | .version major minor =>
      if versioned || major ≠ 1 || (minor ≠ 1 && minor ≠ 2) then none
      else directives rest true handles
    | .tagDirective handle lead =>
      if handles.any (·.1 = handle) then none
      else directives rest versioned (handles ++ [(handle, lead)])
    | _ => some (handles ++ standardHandles, t :: rest)

/-- The first document of a stream: an empty one if the stream is. -/
def firstDocument (tokens : List Token) : Built Doc :=
  let start (handles : List (String × String)) (tokens : List Token) : Build :=
    ⟨tokens, handles, [], []⟩
  let root (b : Build) : Built Doc := node true false (4 * b.tokens.length + 4) b
  match tokens with
  | [] => (start [] []).broken
  | t :: _ =>
    if t.kind = .streamEnd then (emptyDoc t.start, start [] tokens)
    else if t.kind = .documentStart || isDirective t.kind then
      match directives tokens false [] with
      | some (handles, ⟨.documentStart, _, _⟩ :: rest) =>
        let b := start handles rest
        let ends := b.peek?.any fun t =>
          isDirective t.kind || [.documentStart, .documentEnd, .streamEnd].contains t.kind
        if ends then emptyBefore b else root b
      | _ => (start [] []).broken
    else root (start standardHandles tokens)

/-- Whether nothing but the end of the stream follows a document. -/
def endsStream (tokens : List Token) : Bool :=
  (tokens.dropWhile fun t => t.kind = .documentEnd).head?.any (·.kind = .streamEnd)

end DataPipeline.Yaml

namespace DataPipeline.Document

/-- A YAML text of one document: the document, its anchored nodes, and whether anything is wrong
after it. -/
def Doc.ofYamlText (text : String) : Doc × (Nat → Option Doc) × Bool :=
  let (d, b) := Yaml.firstDocument (Yaml.tokens text)
  (d, b.node?, !Yaml.endsStream b.tokens)

/-- Reads data from a YAML text, of at most 128 nested containers; of the root only the given
fields are read. -/
def readYamlText {α : Type} (fields : List String) (read : Reading → Doc → Read α)
    (text : String) :
    Read α := do
  let (d, anchors, broken) := Doc.ofYamlText text
  let r : Reading := { format := .yaml, anchors, depth := 128 }
  if d.isRepetitive fields anchors then r.fail .tooRepetitive ⟨1, 1⟩
  else
    let a ← read r d
    if broken then r.fail .unreadable default else .ok a

end DataPipeline.Document
