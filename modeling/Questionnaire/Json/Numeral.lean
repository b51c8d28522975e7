import Questionnaire.Json.Basic
import Questionnaire.Number.Reading

/-!
# Numbers in JSON text

The value of a written JSON number. Without a point or an exponent it is an integer, as long as 64
bits hold it; minus zero, which no integer can be, is floating point, and so is everything else.

A floating-point value is found in two steps, each rounded to nearest. The significand is the
leading digits, as many as fit in 64 bits; digits left over count toward the exponent before the
point and are dropped after it. Then the rounded significand is multiplied by, or divided by, the
rounded power of ten. A number that is too large is not a value.
-/

namespace Questionnaire

/-- The parts of a written number, checked for form: digits, and the optional parts. -/
structure Numeral where
  negative : Bool
  whole : List Char
  fraction : Option (List Char)
  /-- Whether the exponent is negative, and its digits. -/
  exponent : Option (Bool × List Char)

namespace Numeral

/-- The largest significand, the greatest unsigned integer of 64 bits. -/
def significandLimit : Nat := word64Limit - 1

/-- Appends digits to a significand while it fits; also gives the digits that were left over. -/
def accumulate (significand : Nat) : List Char → Nat × List Char
  | [] => (significand, [])
  | c :: rest =>
    let next := 10 * significand + digitValue c
    if significandLimit < next then (significand, c :: rest) else accumulate next rest

/-- The rounded power of ten, in units. -/
def tenUnits (exponent : Nat) : Nat :=
  nearestUnits (tenPow exponent * unitsPerOne) 1

/-- A count of units divided by a power of ten of at most 308, rounded. -/
def divideByTen (units exponent : Nat) : Nat :=
  nearestUnits (units * unitsPerOne) (tenUnits exponent)

/--
The count of units of `significand * 10 ^ exponent` in two roundings. A division by more than
`10 ^ 308` is done in two parts; beyond twice that the result is zero.
-/
def scale (significand : Nat) (exponent : Int) : Nat :=
  let units := nearestUnits (significand * unitsPerOne) 1
  if 0 ≤ exponent then nearestUnits (units * tenUnits exponent.toNat) unitsPerOne
  else if -308 ≤ exponent then divideByTen units (-exponent).toNat
  else if -616 ≤ exponent then divideByTen (divideByTen units 308) (-exponent - 308).toNat
  else 0

/-- The floating-point number, unless it is out of range. -/
def float? (negative : Bool) (significand : Nat) (exponent : Int) : Option Binary64 :=
  if significand = 0 then some (.zero negative)
  else if 308 < exponent then none
  else if h : Representable (scale significand exponent) then
    some ⟨negative, scale significand exponent, h⟩
  else none

/-- The value of the exponent part. -/
def exponentValue (n : Numeral) : Int :=
  match n.exponent with
  | none => 0
  | some (negative, digits) =>
    let value : Int := digitsValue digits
    if negative then -value else value

/-- The integer, when the number is one and can be spelled in 64 bits. -/
def int? (n : Numeral) : Option Number :=
  match n.fraction, n.exponent with
  | none, none =>
    let magnitude : Int := digitsValue n.whole
    if n.negative then
      if h : IsWord (-magnitude) then if magnitude = 0 then none else some (.int (-magnitude) h)
      else none
    else if h : IsWord magnitude then some (.int magnitude h) else none
  | _, _ => none

/-- The value of a written number, unless it is out of range. -/
def value? (n : Numeral) : Option Number :=
  match n.int? with
  | some number => some number
  | none =>
    let (leading, overflow) := accumulate 0 n.whole
    let fraction := n.fraction.getD []
    let (significand, dropped) := accumulate leading fraction
    let places : Int := fraction.length - dropped.length
    let exponent : Int := overflow.length - places + n.exponentValue
    (float? n.negative significand exponent).map .float

end Numeral

end Questionnaire
