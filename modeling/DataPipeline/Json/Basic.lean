import DataPipeline.Word

namespace DataPipeline

/-- A whole number of 64 bits, signed or unsigned, or a double. -/
inductive Number where
  | int (n : Int)
  | double (x : Float)
  deriving DecidableEq, Inhabited, Repr

/-- The whole numbers that keep all their digits: those of 64 bits, signed or unsigned. -/
def Number.fits (n : Int) : Bool := -(Word.limit 63 : Int) ≤ n && n < (Word.limit 64 : Int)

inductive Json where
  | null
  | bool (b : Bool)
  | number (n : Number)
  | string (s : String)
  | array (items : List Json)
  | object (fields : List (String × Json))
  deriving Inhabited, BEq, Repr

abbrev Fields := List (String × Json)

namespace Fields

def get? (fields : Fields) (key : String) : Option Json :=
  (fields.find? (·.1 = key)).map (·.2)

def contains (fields : Fields) (key : String) : Bool := fields.any (·.1 = key)

/-- Sets a key, keeping keys in ascending order of their code points. -/
def insert (key : String) (value : Json) : Fields → Fields
  | [] => [(key, value)]
  | (k, v) :: rest =>
    if key < k then (key, value) :: (k, v) :: rest
    else if key = k then (key, value) :: rest
    else (k, v) :: insert key value rest

/-- A sorted object from fields in any order; the last of two values of one key wins. -/
def ofList (fields : List (String × Json)) : Fields :=
  fields.foldl (fun acc f => insert f.1 f.2 acc) []

/-- Shallow merge: every supplied key replaces the default wholesale. -/
def merge (defaults supplied : Fields) : Fields :=
  supplied.foldl (fun acc f => insert f.1 f.2 acc) defaults

end Fields

namespace Json

abbrev int (n : Int) : Json := .number (.int n)

abbrev nat (n : Nat) : Json := .number (.int n)

/-- An object literal. -/
def obj (fields : List (String × Json)) : Json := .object (Fields.ofList fields)

def get? : Json → String → Option Json
  | .object fields, key => Fields.get? fields key
  | _, _ => none

def asString? : Json → Option String
  | .string s => some s
  | _ => none

def asNat? : Json → Option Nat
  | .number (.int n) => if 0 ≤ n then some n.toNat else none
  | _ => none

def asArray? : Json → Option (List Json)
  | .array items => some items
  | _ => none

/-- The fields of an object; any other value counts as having none. -/
def fields : Json → Fields
  | .object fields => fields
  | _ => []

mutual

/-- The number of arrays and objects around the deepest value. -/
def depth : Json → Nat
  | .array items => depthItems items + 1
  | .object fields => depthFields fields + 1
  | _ => 0

def depthItems : List Json → Nat
  | [] => 0
  | v :: rest => max (depth v) (depthItems rest)

def depthFields : List (String × Json) → Nat
  | [] => 0
  | (_, v) :: rest => max (depth v) (depthFields rest)

end

end Json

end DataPipeline
