import Questionnaire.Calendar.Basic
import Questionnaire.Number.Reading

/-!
# Layouts of dates

A layout is a list of parts, such as a year of four digits, a slash, or a month's name. It serves
both ways: `Layout.write` gives a moment's text, and `Layout.read?` takes a text apart. Reading is
more generous than writing: a number may have blanks before it and fewer digits, a month's name may
be cut to three letters and have any case, and a space stands for any run of blanks.
-/

namespace Questionnaire

/-- One part of a layout. -/
inductive LayoutPart where
  | year
  | month
  | day
  /-- The day without a leading zero. -/
  | plainDay
  | monthName
  | hour
  | minute
  | second
  | space
  | mark (c : Char)
deriving DecidableEq

/-- A way of writing dates. -/
abbrev Layout := List LayoutPart

/-- What has been read of a moment so far; the time of day starts at midnight. -/
structure MomentParts where
  year : Int := 0
  month : Nat := 0
  day : Nat := 0
  hour : Nat := 0
  minute : Nat := 0
  second : Nat := 0
deriving DecidableEq

/-- The date of the parts, if it exists. -/
def MomentParts.date? (parts : MomentParts) : Option Date :=
  Date.of? parts.year parts.month parts.day

/-- The date and time of the parts, if both exist. -/
def MomentParts.dateTime? (parts : MomentParts) : Option DateTime := do
  let date ← parts.date?
  let time ← Time.of? parts.hour parts.minute parts.second
  pure ⟨date, time⟩

/-- The parts of a moment. -/
def DateTime.parts (moment : DateTime) : MomentParts :=
  ⟨moment.date.year, moment.date.month, moment.date.day,
    moment.time.hour, moment.time.minute, moment.time.second⟩

/-! ## Reading -/

/-- Up to `width` digits in front, at least one, and the rest. -/
def readDigits? (width : Nat) (cs : List Char) : Option (Nat × List Char) :=
  let digits := (cs.take width).takeWhile Char.isDigit
  if digits.isEmpty then none else some (digitsValue digits, cs.drop digits.length)

/-- A number of at most two digits in a range, blanks allowed before it. -/
def readPair? (low high : Nat) (cs : List Char) : Option (Nat × List Char) := do
  let (n, rest) ← readDigits? 2 (Text.trimFront cs)
  if low ≤ n ∧ n ≤ high then pure (n, rest) else none

/-- A year: up to four digits, or a sign and any number of digits. -/
def readYear? (cs : List Char) : Option (Int × List Char) :=
  match Text.trimFront cs with
  | '-' :: rest => (readDigits? rest.length rest).map fun (n, rest) => (-(n : Int), rest)
  | '+' :: rest => (readDigits? rest.length rest).map fun (n, rest) => ((n : Int), rest)
  | cs => (readDigits? 4 cs).map fun (n, rest) => ((n : Int), rest)

/-- The rest behind a word in any case, if the text begins with it. -/
def dropWord? : List Char → List Char → Option (List Char)
  | [], cs => some cs
  | w :: word, c :: cs => if c.toLower = w.toLower then dropWord? word cs else none
  | _ :: _, [] => none

/-- A month's name, in full or its first three letters. -/
def readMonthName? (cs : List Char) : Option (Nat × List Char) :=
  (List.range 12).findSome? fun i =>
    let name := (monthName (i + 1)).toList
    (dropWord? (name.take 3) cs).map fun rest =>
      (i + 1, (dropWord? (name.drop 3) rest).getD rest)

/-- Reads one part in front of a text. -/
def LayoutPart.read? (part : LayoutPart) (parts : MomentParts) (cs : List Char) :
    Option (MomentParts × List Char) :=
  match part with
  | .year => (readYear? cs).map fun (n, rest) => ({ parts with year := n }, rest)
  | .month => (readPair? 1 12 cs).map fun (n, rest) => ({ parts with month := n }, rest)
  | .day | .plainDay => (readPair? 1 31 cs).map fun (n, rest) => ({ parts with day := n }, rest)
  | .monthName => (readMonthName? cs).map fun (n, rest) => ({ parts with month := n }, rest)
  | .hour => (readPair? 0 23 cs).map fun (n, rest) => ({ parts with hour := n }, rest)
  | .minute => (readPair? 0 59 cs).map fun (n, rest) => ({ parts with minute := n }, rest)
  | .second => (readPair? 0 60 cs).map fun (n, rest) => ({ parts with second := n }, rest)
  | .space => some (parts, Text.trimFront cs)
  | .mark c =>
    match cs with
    | d :: rest => if d = c then some (parts, rest) else none
    | [] => none

/-- Reads a whole text part by part. -/
def Layout.readFrom? : Layout → MomentParts → List Char → Option MomentParts
  | [], parts, [] => some parts
  | [], _, _ :: _ => none
  | part :: rest, parts, cs => do
    let (parts, cs) ← part.read? parts cs
    Layout.readFrom? rest parts cs

/-- Reads a whole text. -/
def Layout.read? (layout : Layout) (cs : List Char) : Option MomentParts :=
  layout.readFrom? {} cs

/-! ## Writing -/

/-- A number with zeros in front up to a width. -/
def paddedTo (width n : Nat) : List Char :=
  let digits := (toString n).toList
  List.replicate (width - digits.length) '0' ++ digits

/-- A year: four digits, or a sign and at least four digits beyond 0 to 9999. -/
def yearText (year : Int) : List Char :=
  if year < 0 then '-' :: paddedTo 4 year.natAbs
  else if 9999 < year then '+' :: paddedTo 4 year.natAbs
  else paddedTo 4 year.natAbs

/-- Writes one part. -/
def LayoutPart.write (parts : MomentParts) : LayoutPart → List Char
  | .year => yearText parts.year
  | .month => paddedTo 2 parts.month
  | .day => paddedTo 2 parts.day
  | .plainDay => (toString parts.day).toList
  | .monthName => (Questionnaire.monthName parts.month).toList
  | .hour => paddedTo 2 parts.hour
  | .minute => paddedTo 2 parts.minute
  | .second => paddedTo 2 parts.second
  | .space => [' ']
  | .mark c => [c]

/-- Writes a moment. -/
def Layout.write (layout : Layout) (parts : MomentParts) : String :=
  String.ofList (layout.flatMap (LayoutPart.write parts))

end Questionnaire
