import DataPipeline.Decimal.Shortest
import DataPipeline.Document.Fault
import DataPipeline.Word

namespace DataPipeline.Yaml

def isNullText (s : String) : Bool := s = "null" || s = "Null" || s = "NULL" || s = "~"

def boolOf? (s : String) : Option Bool :=
  if s = "true" ∨ s = "True" ∨ s = "TRUE" then some true
  else if s = "false" ∨ s = "False" ∨ s = "FALSE" then some false
  else none

def isSign (c : Char) : Bool := c = '+' || c = '-'

def startsWithSign (cs : List Char) : Bool := cs.head?.any isSign

def dropSign (cs : List Char) : List Char := if startsWithSign cs then cs.tail else cs

def dropPlus (cs : List Char) : List Char := if cs.head? = some '+' then cs.tail else cs

/-- Whether a text is all digits with a leading zero to spare, which makes it no number. -/
def hasSpareZero (cs : List Char) : Bool :=
  let ds := dropSign cs
  1 < ds.length && ds.head? = some '0' && ds.all Char.isDigit

def radixDigit? (radix : Nat) (c : Char) : Option Nat :=
  let value :=
    if '0' ≤ c ∧ c ≤ '9' then some (c.toNat - 48)
    else if 'a' ≤ c ∧ c ≤ 'z' then some (c.toNat - 87)
    else if 'A' ≤ c ∧ c ≤ 'Z' then some (c.toNat - 55)
    else none
  value.filter (· < radix)

/-- The value of one or more digits. -/
def digitsValue? (radix : Nat) (cs : List Char) : Option Nat :=
  if cs.isEmpty then none
  else (cs.mapM (radixDigit? radix)).map fun ds => ds.foldl (fun acc d => acc * radix + d) 0

/-- The radix a number's first two characters announce, and the digits after them. -/
def radixOf? : List Char → Option (Nat × List Char)
  | '0' :: 'x' :: rest => some (16, rest)
  | '0' :: 'o' :: rest => some (8, rest)
  | '0' :: 'b' :: rest => some (2, rest)
  | _ => none

/-- A number's digits with or without a radix in front. -/
def magnitude? (cs : List Char) : Option Nat :=
  match radixOf? cs with
  | some (radix, digits) => digitsValue? radix digits
  | none => if hasSpareZero cs then none else digitsValue? 10 cs

/-- A whole number of at most 128 bits. -/
def integerOf? (s : String) : Option Int :=
  let cs := s.toList
  if cs.head? = some '-' then
    (magnitude? cs.tail).bind fun n => if n ≤ Word.limit 127 then some (-n) else none
  else
    (magnitude? (dropPlus cs)).bind fun n => if n < Word.limit 128 then some n else none

/-- The double nearest to `digits * 10 ^ exponent`, none when it is too large. -/
def nearestDouble? (digits : List Char) (exponent : Int) : Option Float :=
  let significant := digits.dropWhile (· = '0')
  let n := (digitsValue? 10 significant).getD 0
  let size : Int := significant.length + exponent
  if n = 0 then some 0
  else if 400 < size then none
  else if size < -400 then some 0
  else
    let x := Float.ofScientific n (exponent < 0) exponent.natAbs
    if x.isFinite then some x else none

/-- The exponent of a double after its digits: nothing, or a mark and a whole number. -/
def exponentOf? : List Char → Option Int
  | [] => some 0
  | c :: rest =>
    if c = 'e' ∨ c = 'E' then
      let n := digitsValue? 10 (dropSign rest)
      if rest.head? = some '-' then n.map fun k => -(k : Int) else n.map fun k => (k : Int)
    else none

/-- A double without sign: digits with at most one point among them, and an exponent. -/
def unsignedDouble? (cs : List Char) : Option Float :=
  let whole := cs.takeWhile Char.isDigit
  let rest := cs.dropWhile Char.isDigit
  let (fraction, rest) :=
    match rest with
    | '.' :: after => (after.takeWhile Char.isDigit, after.dropWhile Char.isDigit)
    | _ => ([], rest)
  if whole.isEmpty && fraction.isEmpty then none
  else (exponentOf? rest).bind fun e => nearestDouble? (whole ++ fraction) (e - fraction.length)

def doubleOf? (s : String) : Option Float :=
  let cs := s.toList
  let positive := dropPlus cs
  let infinite : List String := [".inf", ".Inf", ".INF"]
  if cs.head? = some '+' && startsWithSign positive then none
  else if infinite.any (·.toList = positive) then some (1 / 0)
  else if infinite.any (fun t => '-' :: t.toList = cs) then some (-1 / 0)
  else if s = ".nan" ∨ s = ".NaN" ∨ s = ".NAN" then some (0 / 0)
  else if positive.head? = some '-' then (unsignedDouble? positive.tail).map fun x => -x
  else unsignedDouble? positive

/-- The shortest digits of a double without an exponent, and with a point. -/
def positionalChars (x : Float) : List Char :=
  match Decimal.Binary.ofFloat? x with
  | none =>
    if x.isNaN then ['N', 'a', 'N']
    else (if Decimal.isNegative x then ['-'] else []) ++ ['i', 'n', 'f']
  | some b =>
    let sign := if Decimal.isNegative x then ['-'] else []
    if b.significand = 0 then sign ++ ['0', '.', '0']
    else
      let d := b.shortest
      let ds := Decimal.natChars d.digits
      let whole : Int := d.exponent + ds.length
      sign ++
        if 0 ≤ d.exponent then ds ++ List.replicate d.exponent.toNat '0' ++ ['.', '0']
        else if 0 < whole then ds.take whole.toNat ++ ['.'] ++ ds.drop whole.toNat
        else ['0', '.'] ++ List.replicate whole.natAbs '0' ++ ds

open Document (Found)

def foundDouble (x : Float) : Found := .double x (String.ofList (positionalChars x))

/-- What a plain scalar is found to be when its tag says nothing. -/
def plainFound (text : String) : Found :=
  if text.isEmpty || isNullText text then .unit
  else match boolOf? text, integerOf? text with
    | some b, _ => .bool b
    | _, some n => .int n
    | _, _ =>
      if hasSpareZero text.toList then .string text
      else match doubleOf? text with
        | some x => foundDouble x
        | none => .string text

end DataPipeline.Yaml
