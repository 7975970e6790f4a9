import DataPipeline.Json.Basic
import DataPipeline.Text.Quoted

namespace DataPipeline.Document

/-- A place in a text: the line counts from one, the column in the units of the format. -/
structure Mark where
  line : Nat
  column : Nat
  deriving DecidableEq, Inhabited, Repr

/-- Why a text is not JSON. -/
inductive Malformed where
  | eofInList | eofInObject | eofInString | eofInValue
  | expectedColon | expectedListComma | expectedObjectComma | expectedIdent | expectedValue
  | invalidEscape | invalidNumber | numberOutOfRange | controlCharacter
  | keyNotString | loneSurrogate | unfinishedSurrogate
  | trailingComma | trailingCharacters
  deriving DecidableEq, Inhabited, Repr

namespace Malformed

def message : Malformed → String
  | eofInList => "EOF while parsing a list"
  | eofInObject => "EOF while parsing an object"
  | eofInString => "EOF while parsing a string"
  | eofInValue => "EOF while parsing a value"
  | expectedColon => "expected `:`"
  | expectedListComma => "expected `,` or `]`"
  | expectedObjectComma => "expected `,` or `\x7d`"
  | expectedIdent => "expected ident"
  | expectedValue => "expected value"
  | invalidEscape => "invalid escape"
  | invalidNumber => "invalid number"
  | numberOutOfRange => "number out of range"
  | controlCharacter => "control character (\\u0000-\\u001F) found while parsing a string"
  | keyNotString => "key must be a string"
  | loneSurrogate => "lone leading surrogate in hex escape"
  | unfinishedSurrogate => "unexpected end of hex escape"
  | trailingComma => "trailing comma"
  | trailingCharacters => "trailing characters"

/-- Whether the text ended too early, as opposed to being wrong where it stands. -/
def isEof : Malformed → Bool
  | eofInList | eofInObject | eofInString | eofInValue => true
  | _ => false

end Malformed

/-- What stands where something else was wanted. -/
inductive Found where
  | null
  | unit
  | bool (b : Bool)
  | int (n : Int)
  | double (x : Float) (text : String)
  | string (s : String)
  | sequence
  | map
  | enumeration
  deriving DecidableEq, Inhabited, Repr

def Found.message : Found → String
  | null => "null"
  | unit => "unit value"
  | bool b => "boolean `" ++ (if b then "true" else "false") ++ "`"
  | int n =>
    "integer `" ++ toString n ++ "`" ++
      (if Number.fits n then "" else if n < 0 then " as i128" else " as u128")
  | double _ text => "floating point `" ++ text ++ "`"
  | string s => "string " ++ Text.quoted s
  | sequence => "sequence"
  | map => "map"
  | enumeration => "enum"

inductive Fault where
  | wrongType (found : Found) (expected : String)
  | wrongValue (found : Found) (expected : String)
  | wrongLength (count : Nat) (expected : String)
  | missingField (name : String)
  | repeatedField (name : String)
  | unknownVariant (name : String) (known : List String)
  | numberTooWide
  | tooDeep
  | tooRepetitive
  | malformed (cause : Malformed)
  | unreadable
  deriving DecidableEq, Inhabited, Repr

def Fault.message : Fault → String
  | wrongType found expected => "invalid type: " ++ found.message ++ ", expected " ++ expected
  | wrongValue found expected => "invalid value: " ++ found.message ++ ", expected " ++ expected
  | wrongLength count expected =>
    "invalid length " ++ toString count ++ ", expected " ++ expected
  | missingField name => "missing field `" ++ name ++ "`"
  | repeatedField name => "duplicate field `" ++ name ++ "`"
  | unknownVariant name known =>
    "unknown variant `" ++ name ++ "`, expected one of " ++
      ", ".intercalate (known.map fun k => "`" ++ k ++ "`")
  | numberTooWide => "JSON number out of range"
  | tooDeep => "recursion limit exceeded"
  | tooRepetitive => "repetition limit exceeded"
  | malformed cause => cause.message
  | unreadable => ""

/-- A step from a document's root toward a node. -/
inductive Step where
  | key (name : String)
  | index (n : Nat)
  | alias
  | unnamed
  deriving DecidableEq, Inhabited, Repr

/-- The steps to a node, the last one first. -/
abbrev Trail := List Step

/-- The text of a trail; the root is a point. -/
def trailText : Trail → String
  | [] => "."
  | .index n :: outer => trailText outer ++ "[" ++ toString n ++ "]"
  | .alias :: outer => trailText outer
  | .key name :: outer => (if outer.isEmpty then "" else trailText outer ++ ".") ++ name
  | .unnamed :: outer => (if outer.isEmpty then "" else trailText outer ++ ".") ++ "?"

/-- A fault, its place and the node it is about. -/
structure Failure where
  fault : Fault
  place : Mark
  trail : Trail
  deriving DecidableEq, Inhabited, Repr

/-- How a failure is reported: of a value without a place, of JSON text with line and column, of
YAML text with the trail in front as well. -/
inductive Format where
  | value
  | json
  | yaml
  deriving DecidableEq, Inhabited, Repr

def Mark.message (m : Mark) : String :=
  " at line " ++ toString m.line ++ " column " ++ toString m.column

def Failure.message (f : Failure) : Format → String
  | .value => f.fault.message
  | .json => f.fault.message ++ f.place.message
  | .yaml =>
    let trail := trailText f.trail
    (if trail = "." ∨ f.fault = .tooDeep then "" else trail ++ ": ") ++ f.fault.message ++
      (if f.place = ⟨1, 1⟩ then "" else f.place.message)

end DataPipeline.Document
