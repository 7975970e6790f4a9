namespace DataPipeline.CommandLine

/-- A moment after the start of 1970, without leap seconds. -/
structure Moment where
  seconds : Nat
  nanos : Nat
  deriving DecidableEq, Inhabited, Repr

/-- Decimal digits, zeros in front. -/
def digitsOf (width n : Nat) : String :=
  let digits := toString n
  String.ofList (List.replicate (width - digits.length) '0') ++ digits

/-- Year, month and day of a day after the start of 1970. Years are counted from March, in eras
of 400. -/
def dateOf (day : Nat) : Nat × Nat × Nat :=
  let shifted := day + 719468
  let inEra := shifted % 146097
  let yearOfEra := (inEra - inEra / 1460 + inEra / 36524 - inEra / 146096) / 365
  let inYear := inEra - (365 * yearOfEra + yearOfEra / 4 - yearOfEra / 100)
  let fromMarch := (5 * inYear + 2) / 153
  let month := if fromMarch < 10 then fromMarch + 3 else fromMarch - 9
  let year := yearOfEra + 400 * (shifted / 146097) + if month ≤ 2 then 1 else 0
  (year, month, inYear - (153 * fromMarch + 2) / 5 + 1)

namespace Moment

def date (m : Moment) (separator : String) : String :=
  let (year, month, day) := dateOf (m.seconds / 86400)
  separator.intercalate [digitsOf 4 year, digitsOf 2 month, digitsOf 2 day]

def clock (m : Moment) (separator : String) : String :=
  separator.intercalate [digitsOf 2 (m.seconds / 3600 % 24), digitsOf 2 (m.seconds / 60 % 60),
    digitsOf 2 (m.seconds % 60)]

/-- The name of a run that starts at the moment. -/
def runId (m : Moment) : String :=
  m.date "" ++ "T" ++ m.clock "" ++ "." ++ digitsOf 3 (m.nanos / 1000000) ++ "Z"

/-- The moment with as many groups of three decimals as it needs. -/
def text (m : Moment) : String :=
  let decimals :=
    if m.nanos = 0 then ""
    else if m.nanos % 1000000 = 0 then "." ++ digitsOf 3 (m.nanos / 1000000)
    else if m.nanos % 1000 = 0 then "." ++ digitsOf 6 (m.nanos / 1000)
    else "." ++ digitsOf 9 m.nanos
  m.date "-" ++ "T" ++ m.clock ":" ++ decimals ++ "Z"

/-- The moment in front of a log entry. -/
def stamp (m : Moment) : String :=
  m.date "-" ++ "T" ++ m.clock ":" ++ "." ++ digitsOf 6 (m.nanos / 1000) ++ "Z"

end Moment

end DataPipeline.CommandLine
