import DataPipeline.Document.Basic

namespace DataPipeline.Document

mutual

/-- How many marks a node is written with: a list or a map has one where it starts and one where
it ends. -/
def Doc.marks : Doc → Nat
  | .sequence items _ _ _ => 2 + Doc.marksOfItems items
  | .mapping entries _ _ _ => 2 + Doc.marksOfEntries entries
  | _ => 1

def Doc.marksOfItems : List Doc → Nat
  | [] => 0
  | d :: rest => d.marks + Doc.marksOfItems rest

def Doc.marksOfEntries : List Entry → Nat
  | [] => 0
  | .mk key _ value :: rest => key.marks + value.marks + Doc.marksOfEntries rest

end

mutual

/-- How many aliases are followed to read a node, given how many an alias of each anchor
takes. -/
def Doc.follows (each : Nat → Nat) : Doc → Nat
  | .alias anchor => each anchor
  | .sequence items _ _ _ => Doc.followsItems each items
  | .mapping entries _ _ _ => Doc.followsEntries each entries
  | _ => 0

def Doc.followsItems (each : Nat → Nat) : List Doc → Nat
  | [] => 0
  | d :: rest => d.follows each + Doc.followsItems each rest

def Doc.followsEntries (each : Nat → Nat) : List Entry → Nat
  | [] => 0
  | .mk key _ value :: rest =>
    key.follows each + value.follows each + Doc.followsEntries each rest

end

/-- How many aliases an alias takes: itself, and those in the node it stands for. One that
stands inside its own node is not followed further, for its depth stops it. -/
def perAlias (table : List Nat) (anchor : Nat) : Nat := (table[anchor]?).getD 1

/-- The aliases that an alias of each anchor takes, from the first anchor on. -/
def aliasTable (anchors : Nat → Option Doc) : Nat → List Nat → List Nat
  | 0, table => table
  | fuel + 1, table =>
    match anchors table.length with
    | none => table
    | some d => aliasTable anchors fuel (table ++ [1 + d.follows (perAlias table)])

/-- Whether an entry has one of the given keys. -/
def Entry.isAmong (fields : List String) : Entry → Bool
  | .mk (.scalar key _) _ _ => key.text?.any fields.contains
  | _ => false

/-- How many aliases are followed to read a document of which only the given fields are read. -/
def Doc.followsFields (fields : List String) (each : Nat → Nat) : Doc → Nat
  | .mapping entries _ _ _ => Doc.followsEntries each (entries.filter (·.isAmong fields))
  | d => d.follows each

/-- Whether more than a hundred aliases are followed for each mark of a document. -/
def Doc.isRepetitive (fields : List String) (anchors : Nat → Option Doc) (d : Doc) : Bool :=
  let marks := d.marks
  100 * marks < d.followsFields fields (perAlias (aliasTable anchors marks []))

end DataPipeline.Document
