import DataPipeline.Decimal.Binary

namespace DataPipeline.Decimal

/-- The number `digits * 10 ^ exponent`. -/
structure Digits where
  digits : Nat
  exponent : Int
  deriving DecidableEq, Repr

/-- The reals that round to one double, in quarters of its last place. -/
structure Rounding where
  low : Nat
  value : Nat
  high : Nat
  closed : Bool
  scale : Int
  deriving DecidableEq, Repr

def Binary.rounding (b : Binary) : Rounding where
  low := if b.gapHalvesBelow then 4 * b.significand - 1 else 4 * b.significand - 2
  value := 4 * b.significand
  high := 4 * b.significand + 2
  closed := b.significand % 2 == 0
  scale := b.exponent - 2

/-- Whether `n * 10 ^ e` rounds to the double. -/
def Rounding.admits (r : Rounding) (n : Nat) (e : Int) : Bool :=
  let low := Ratio.scaleTen (Ratio.scaleTwo r.low r.scale) (-e)
  let high := Ratio.scaleTen (Ratio.scaleTwo r.high r.scale) (-e)
  if r.closed then low.num ≤ n * low.den && n * high.den ≤ high.num
  else low.num < n * low.den && n * high.den < high.num

/-- The point of the grid of spacing `10 ^ e` nearest to the double, if a neighbour on it is
admitted. -/
def Rounding.onGrid? (r : Rounding) (e : Int) : Option Digits :=
  let exact := Ratio.scaleTen (Ratio.scaleTwo r.value r.scale) (-e)
  let below := exact.num / exact.den
  let above := below + 1
  match r.admits below e, r.admits above e with
  | true, true => some ⟨exact.round, e⟩
  | true, false => some ⟨below, e⟩
  | false, true => some ⟨above, e⟩
  | false, false => none

/-- The first grid, from coarse to fine, that has a point for the double. -/
def Rounding.search (r : Rounding) (e : Int) : Nat → Digits
  | 0 => ⟨r.value, 0⟩
  | n + 1 => (r.onGrid? e).getD (r.search (e - 1) n)

/-- The number of digits before the decimal point, non-positive below `0.1`. -/
def integerDigits (r : Ratio) : Int :=
  if r.den ≤ r.num then ((Nat.toDigits 10 (r.num / r.den)).length : Int)
  else 1 - ((Nat.toDigits 10 (r.den / r.num)).length : Int) +
    (if r.num * Nat.pow 10 ((Nat.toDigits 10 (r.den / r.num)).length - 1) = r.den then 1 else 0)

/-- Drops final zeros. -/
def stripZeros (d : Digits) : Nat → Digits
  | 0 => d
  | n + 1 =>
    if d.digits % 10 = 0 ∧ d.digits ≠ 0 then stripZeros ⟨d.digits / 10, d.exponent + 1⟩ n else d

/-- The fewest digits that read back as the double. -/
def Binary.shortest (b : Binary) : Digits :=
  let size := integerDigits (Ratio.scaleTwo b.significand b.exponent)
  stripZeros (b.rounding.search size 20) 20

/-- The digits of a number as characters. -/
def natChars (n : Nat) : List Char := (toString n).toList

/-- A positive number written with digits `ds` and first digit at place `10 ^ place`. -/
def layout (ds : List Char) (place : Int) : List Char :=
  if 16 ≤ place ∨ place < -5 then
    let fraction := if ds.tail.isEmpty then [] else '.' :: ds.tail
    let sign := if place < 0 then ['-'] else ['+']
    ds.take 1 ++ fraction ++ ['e'] ++ sign ++ natChars place.natAbs
  else if place < 0 then
    ['0', '.'] ++ List.replicate (place.natAbs - 1) '0' ++ ds
  else
    let whole := place.toNat + 1
    if ds.length ≤ whole then ds ++ List.replicate (whole - ds.length) '0' ++ ['.', '0']
    else ds.take whole ++ ['.'] ++ ds.drop whole

/-- The shortest text of a finite double; infinities and NaN, which no document holds, are
`null`. -/
def shortestChars (x : Float) : List Char :=
  match Binary.ofFloat? x with
  | none => ['n', 'u', 'l', 'l']
  | some b =>
    let sign := if isNegative x then ['-'] else []
    if b.significand = 0 then sign ++ ['0', '.', '0']
    else
      let d := b.shortest
      let ds := natChars d.digits
      sign ++ layout ds (d.exponent + ds.length - 1)

end DataPipeline.Decimal
