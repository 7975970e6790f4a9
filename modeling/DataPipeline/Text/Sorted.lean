namespace DataPipeline.Text

/-- Puts a name into its place, unless it is there. -/
def insertName (name : String) : List String → List String
  | [] => [name]
  | n :: rest =>
    if name < n then name :: n :: rest
    else if name = n then n :: rest
    else n :: insertName name rest

def sorted (names : List String) : List String := names.foldr insertName []

@[simp] theorem mem_insertName {a name : String} {names : List String} :
    a ∈ insertName name names ↔ a = name ∨ a ∈ names := by
  induction names with
  | nil => simp [insertName]
  | cons n rest ih =>
    simp only [insertName]
    split
    · simp
    · split
      · simp_all
      · simp only [List.mem_cons, ih]
        grind

@[simp] theorem mem_sorted {a : String} {names : List String} :
    a ∈ sorted names ↔ a ∈ names := by
  induction names with
  | nil => simp [sorted]
  | cons n rest ih =>
    rw [sorted, List.foldr_cons, mem_insertName, ← sorted, ih, List.mem_cons]

end DataPipeline.Text
