import Questionnaire.Number.Binary64
import Questionnaire.Text.Blank

/-!
# Numbers from text

Reading decimal notation: an optional sign, digits with an optional point, at least one digit, and
an optional exponent. The value is rounded once, from the exact decimal. Words for infinity or for
no number at all are not read.
-/

namespace Questionnaire

/-- The value of a decimal digit. -/
def digitValue (c : Char) : Nat :=
  c.toNat - '0'.toNat

/-- The value of a run of digits. -/
def digitsValue (cs : List Char) : Nat :=
  cs.foldl (fun value c => 10 * value + digitValue c) 0

/-- A written number, exactly: `± digits * 10 ^ exponent`. -/
structure DecimalNotation where
  negative : Bool
  digits : Nat
  exponent : Int
deriving DecidableEq

/--
The nearest number. The exact quotient is only formed when its size is within reach of the finite
range, so that a huge exponent costs nothing.
-/
def DecimalNotation.nearest (d : DecimalNotation) : Extended64 :=
  let size := ((toString d.digits).length : Int) + d.exponent
  if d.digits = 0 ∨ size < -400 then .finite (.zero d.negative)
  else if 400 < size then .infinite d.negative
  else if 0 ≤ d.exponent then .nearest d.negative (d.digits * tenPow d.exponent.toNat) 1
  else .nearest d.negative d.digits (tenPow (-d.exponent).toNat)

/-- A leading sign, and what follows it. -/
def splitSign : List Char → Bool × List Char
  | '-' :: rest => (true, rest)
  | '+' :: rest => (false, rest)
  | cs => (false, cs)

/-- A signed run of digits and nothing else. -/
def exponentOf? (cs : List Char) : Option Int :=
  let (negative, digits) := splitSign cs
  if digits.isEmpty || !digits.all Char.isDigit then none
  else
    let value : Int := digitsValue digits
    some (if negative then -value else value)

/-- The exponent at the end of a number: nothing, or a letter and a signed run of digits. -/
def exponentPart? : List Char → Option Int
  | [] => some 0
  | c :: rest => if c = 'e' ∨ c = 'E' then exponentOf? rest else none

/-- Reads decimal notation. -/
def DecimalNotation.ofChars? (cs : List Char) : Option DecimalNotation :=
  let (negative, body) := splitSign cs
  let whole := body.takeWhile Char.isDigit
  let afterWhole := body.dropWhile Char.isDigit
  let (fraction, afterFraction) :=
    match afterWhole with
    | '.' :: rest => (rest.takeWhile Char.isDigit, rest.dropWhile Char.isDigit)
    | rest => ([], rest)
  if whole.isEmpty && fraction.isEmpty then none
  else
    (exponentPart? afterFraction).map fun exponent =>
      ⟨negative, digitsValue (whole ++ fraction), exponent - fraction.length⟩

/-- The finite number a text denotes, if it denotes one. -/
def Binary64.ofText? (s : String) : Option Binary64 :=
  (DecimalNotation.ofChars? s.toList).bind fun d => d.nearest.finite?

/-- A whole number with an optional sign and nothing else. -/
def intOfText? (s : String) : Option Int :=
  exponentOf? s.toList

/-- A whole number of 64 bits with a sign, written with or without one. -/
def int64OfText? (s : String) : Option Int :=
  (intOfText? s).filter fun i => -int64Limit ≤ i && i < int64Limit

/-- A whole number of 32 bits, which may have a plus in front but no minus. -/
def word32OfText? (s : String) : Option Nat :=
  match s.toList with
  | '-' :: _ => none
  | cs => (exponentOf? cs).bind fun i => if i < word32Limit then some i.toNat else none

end Questionnaire
