import DataPipeline.Document.Fault
import DataPipeline.Json.Printer

namespace DataPipeline.Document

/-- A fault and its place in the text. -/
structure Located where
  fault : Fault
  place : Mark
  deriving DecidableEq, Inhabited, Repr

/-- The places of a node: where a wrong type is reported, where the node's first character has
been looked at, and where it has ended. -/
structure Span where
  place : Mark
  inside : Mark
  stop : Mark
  deriving DecidableEq, Inhabited, Repr

/-- A scalar as its readers see it. A format whose scalars are untyped offers every scalar as
`text?`; a scalar that may stand for an absent option is `absent`, for an empty list or map
`hollow`. -/
structure Scalar where
  found : Except Located Found
  text? : Option String
  absent : Except Located Bool
  hollow : Bool
  custom : Bool

/-- How the items of a list or map end: at its closing mark or at a fault, met by readers and by
those who skip. -/
inductive Ending where
  | closed
  | cut (read skipped : Located)

mutual

inductive Doc where
  | scalar (value : Scalar) (span : Span)
  | sequence (items : List Doc) (ending : Ending) (custom : Bool) (span : Span)
  | mapping (entries : List Entry) (ending : Ending) (custom : Bool) (span : Span)
  | alias (anchor : Nat)
  | broken (read skipped : Located) (inside : Mark)

/-- A key, the place where its repetition is reported, and its value. -/
inductive Entry where
  | mk (key : Doc) (place : Mark) (value : Doc)

end

instance : Inhabited Doc := ⟨.alias 0⟩

/-- The place of a node when its first character has been looked at. -/
def Doc.inside : Doc → Mark
  | .scalar _ span | .sequence _ _ _ span | .mapping _ _ _ span => span.inside
  | .alias _ => default
  | .broken _ _ inside => inside

/-- The place where a node has ended. -/
def Doc.stop : Doc → Mark
  | .scalar _ span | .sequence _ _ _ span | .mapping _ _ _ span => span.stop
  | .alias _ => default
  | .broken read _ _ => read.place

def Ending.skipped : Ending → Option Located
  | .closed => none
  | .cut _ skipped => some skipped

mutual

/-- The first fault that stops even a reader who skips the node. -/
def Doc.skipped : Doc → Option Located
  | .scalar _ _ => none
  | .sequence items ending _ _ => Doc.skippedItems items <|> ending.skipped
  | .mapping entries ending _ _ => Doc.skippedEntries entries <|> ending.skipped
  | .alias _ => none
  | .broken _ skipped _ => some skipped

def Doc.skippedItems : List Doc → Option Located
  | [] => none
  | d :: rest => d.skipped <|> Doc.skippedItems rest

def Doc.skippedEntries : List Entry → Option Located
  | [] => none
  | .mk key _ value :: rest => key.skipped <|> value.skipped <|> Doc.skippedEntries rest

end

/-- A scalar of a format whose scalars are typed. -/
def Scalar.typed (found : Found) : Scalar where
  found := .ok found
  text? := none
  absent := .ok (found = .null)
  hollow := false
  custom := false

/-- A scalar that can be skipped but not read. -/
def Scalar.unreadable (fault : Located) : Scalar where
  found := .error fault
  text? := none
  absent := .ok false
  hollow := false
  custom := false

mutual

/-- A JSON value as a document without places. -/
def Doc.ofJson : Json → Doc
  | .null => .scalar (.typed .null) default
  | .bool b => .scalar (.typed (.bool b)) default
  | .number (.int n) => .scalar (.typed (.int n)) default
  | .number (.double x) =>
    .scalar (.typed (.double x (Number.double x).text)) default
  | .string s => .scalar (.typed (.string s)) default
  | .array items => .sequence (Doc.ofItems items) .closed false default
  | .object fields => .mapping (Doc.ofFields fields) .closed false default

def Doc.ofItems : List Json → List Doc
  | [] => []
  | v :: rest => Doc.ofJson v :: Doc.ofItems rest

def Doc.ofFields : List (String × Json) → List Entry
  | [] => []
  | (k, v) :: rest =>
    .mk (.scalar (.typed (.string k)) default) default (Doc.ofJson v) :: Doc.ofFields rest

end

end DataPipeline.Document
