import DataPipeline.Decimal.Binary

namespace DataPipeline.Decimal

/-- A whole number of units of `10 ^ (-places)`, written with a point. -/
def placesChars (units places : Nat) : List Char :=
  let whole := (toString (units / Nat.pow 10 places)).toList
  let fraction := (toString (units % Nat.pow 10 places)).toList
  if places = 0 then whole
  else whole ++ ['.'] ++ List.replicate (places - fraction.length) '0' ++ fraction

/-- The text of a double with the given number of places. -/
def fixedChars (places : Nat) (x : Float) : List Char :=
  match Binary.ofFloat? x with
  | none =>
    if x.isNaN then ['N', 'a', 'N']
    else (if isNegative x then ['-'] else []) ++ ['i', 'n', 'f']
  | some b =>
    let units := (Ratio.scaleTen (Ratio.scaleTwo b.significand b.exponent) places).round
    (if isNegative x then ['-'] else []) ++ placesChars units places

end DataPipeline.Decimal
