import DataPipeline.Word

namespace DataPipeline.Decimal

/-- The magnitude `significand * 2 ^ exponent` of a finite double. -/
structure Binary where
  significand : Nat
  exponent : Int
  deriving DecidableEq, Repr

/-- Whether the sign bit is set; true of `-0.0`. -/
def isNegative (x : Float) : Bool := x.toBits >>> 63 == 1

/-- The magnitude of a finite double, none for infinities and NaN. -/
def Binary.ofFloat? (x : Float) : Option Binary :=
  let bits := x.toBits.toNat
  let fraction : Nat := bits % Word.limit 52
  let biased : Nat := bits / Word.limit 52 % Word.limit 11
  if biased = 2047 then none
  else if biased = 0 then some ⟨fraction, -1074⟩
  else some ⟨Word.limit 52 + fraction, (biased : Int) - 1075⟩

/-- Whether the gap to the next smaller double is half the gap to the next larger one. -/
def Binary.gapHalvesBelow (b : Binary) : Bool :=
  b.significand == Word.limit 52 && b.exponent > -1074

/-- A non-negative fraction. -/
structure Ratio where
  num : Nat
  den : Nat
  deriving DecidableEq, Repr

/-- The fraction `n * 2 ^ e`. -/
def Ratio.scaleTwo (n : Nat) (e : Int) : Ratio :=
  if 0 ≤ e then ⟨n * Nat.pow 2 e.toNat, 1⟩ else ⟨n, Nat.pow 2 (-e).toNat⟩

/-- The fraction `r * 10 ^ e`. -/
def Ratio.scaleTen (r : Ratio) (e : Int) : Ratio :=
  if 0 ≤ e then ⟨r.num * Nat.pow 10 e.toNat, r.den⟩ else ⟨r.num, r.den * Nat.pow 10 (-e).toNat⟩

/-- The nearest whole number, the even one of two that are equally near. -/
def Ratio.round (r : Ratio) : Nat :=
  let floor := r.num / r.den
  let twice := 2 * (r.num % r.den)
  if twice < r.den then floor
  else if r.den < twice then floor + 1
  else floor + floor % 2

end DataPipeline.Decimal
