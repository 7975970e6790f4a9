import DataPipeline.Json.Basic

namespace DataPipeline.Json

/-- A number as written: the digits before the point, after it, and of a signed exponent. -/
structure Numeral where
  negative : Bool
  whole : List Char
  fraction : Option (List Char)
  exponent : Option (Bool × List Char)
  deriving DecidableEq, Inhabited, Repr

def digit (c : Char) : Nat := c.toNat - 48

/-- Appends digits to a number as long as it stays within `limit`; the digits left over come
second. -/
def absorb (limit : Nat) : Nat → List Char → Nat × List Char
  | n, [] => (n, [])
  | n, c :: rest =>
    if n * 10 + digit c ≤ limit then absorb limit (n * 10 + digit c) rest else (n, c :: rest)

/-- The double nearest to a power of ten. -/
def tenTo (e : Nat) : Float := Float.ofScientific 1 false e

/-- The double `x * 10 ^ e`, none when it is too large. -/
def scaleUp (x : Float) (e : Nat) : Option Float :=
  if e ≤ 308 then
    let y := x * tenTo e
    if y.isInf then none else some y
  else if x == 0 then some x else none

/-- The double `x / 10 ^ e`, in steps of at most `1e308`. -/
def scaleDown (x : Float) (e : Nat) : Float :=
  if e ≤ 308 then x / tenTo e
  else if x == 0 then x else scaleDown (x / tenTo 308) (e - 308)
termination_by e

def scale (significand : Nat) (e : Int) : Option Float :=
  let x := significand.toUInt64.toFloat
  if 0 ≤ e then scaleUp x e.toNat else some (scaleDown x e.natAbs)

def signed (negative : Bool) (x : Float) : Float := if negative then -x else x

namespace Numeral

/-- A numeral without fraction and exponent whose digits all fit. -/
def ofWhole (negative : Bool) (n : Nat) : Number :=
  if !negative then .int n
  else if 0 < n ∧ n ≤ Word.limit 63 then .int (-n)
  else .double (-n.toUInt64.toFloat)

/-- The value, or how many exponent digits are still unread when the number turns out too
large. -/
def value (numeral : Numeral) : Except Nat Number :=
  let (significand, dropped) := absorb (Word.limit 64 - 1) 0 numeral.whole
  if dropped.isEmpty ∧ numeral.fraction.isNone ∧ numeral.exponent.isNone then
    .ok (ofWhole numeral.negative significand)
  else
    let fraction := numeral.fraction.getD []
    let (significand, unused) := absorb (Word.limit 64 - 1) significand fraction
    let place : Int := dropped.length - (fraction.length - unused.length)
    let double (e : Int) : Except Nat Number :=
      match scale significand e with
      | some x => .ok (.double (signed numeral.negative x))
      | none => .error 0
    match numeral.exponent with
    | none => double place
    | some (down, digits) =>
      match absorb (Word.limit 31 - 1) 0 digits with
      | (e, []) => double (if down then place - e else place + e)
      | (_, _ :: unread) =>
        if significand ≠ 0 ∧ !down then .error unread.length
        else .ok (.double (signed numeral.negative 0))

end Numeral

end DataPipeline.Json
