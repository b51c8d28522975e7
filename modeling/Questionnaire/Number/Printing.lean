import Questionnaire.Number.Shortest

/-!
# Numbers as text

Two ways of writing a binary64 number, both with the fewest digits that read back.

* `Binary64.plain` never uses an exponent and writes a whole number without a point. It is how
  bounds and expression values appear in messages.
* `Binary64.marked` always shows that the number is not an integer: it keeps `.0`, and it uses an
  exponent below `10 ^ -5` and from `10 ^ 16` on. It is how numbers appear in JSON.
-/

namespace Questionnaire

/-- A run of zeros. -/
def zeros (count : Nat) : String :=
  String.ofList (List.replicate count '0')

/-- The sign in front of a negative number, zero included. -/
def Binary64.signText (x : Binary64) : String :=
  if x.negative then "-" else ""

/-- A decimal written out in full; `pointless` ends a whole number. -/
def Decimal.positional (pointless : String) (d : Decimal) : String :=
  let digits := toString d.digits
  if 0 ≤ d.exponent then digits ++ zeros d.exponent.toNat ++ pointless
  else
    let places := (-d.exponent).toNat
    if places < digits.length then
      (digits.take (digits.length - places)).toString ++ "." ++
        (digits.drop (digits.length - places)).toString
    else "0." ++ zeros (places - digits.length) ++ digits

/-- A decimal with one digit before the point and an exponent, whose sign is always written. -/
def Decimal.scientific (d : Decimal) : String :=
  let digits := toString d.digits
  let exponent := d.exponent + (digits.length : Int) - 1
  let mantissa :=
    if digits.length = 1 then digits
    else (digits.take 1).toString ++ "." ++ (digits.drop 1).toString
  mantissa ++ "e" ++ (if 0 ≤ exponent then "+" else "-") ++ toString exponent.natAbs

/-- The number in full, without an exponent. -/
def Binary64.plain (x : Binary64) : String :=
  x.signText ++ (shortestDecimal .up x.units).positional ""

/-- The number with a point or an exponent. -/
def Binary64.marked (x : Binary64) : String :=
  let d := shortestDecimal .toEven x.units
  let point := d.exponent + ((toString d.digits).length : Int)
  x.signText ++
    (if -5 < point ∧ point ≤ 16 then d.positional ".0" else d.scientific)

/-- The number in full; the infinities have a word. -/
def Extended64.plain : Extended64 → String
  | .finite x => x.plain
  | .infinite negative => if negative then "-inf" else "inf"

/-- The value in full, or the word for it. -/
def Float64.plain : Float64 → String
  | .number x => x.plain
  | .nan => "NaN"

/-- The nearest integer of 64 bits with a sign to an integer. -/
def clampInt64 (i : Int) : Int :=
  max (-int64Limit) (min i (int64Limit - 1))

/-- A whole number is written as an integer of 64 bits, any other number in full. -/
def Extended64.rounded : Extended64 → String
  | .finite x => if x.isWhole then toString (clampInt64 x.truncate) else x.plain
  | .infinite negative => (Extended64.infinite negative).plain

end Questionnaire
