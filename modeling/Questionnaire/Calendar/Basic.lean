/-!
# Dates and times of day

Calendar dates of the Gregorian calendar, extended to all years, and times of day to the second. A
minute may have a sixtieth second. A date that does not exist is no value of `Date`.
-/

namespace Questionnaire

/-- Whether a year has a 29 February. -/
def isLeapYear (year : Int) : Bool :=
  year % 4 == 0 && (year % 100 != 0 || year % 400 == 0)

/-- The number of days in a month; none for a number that names no month. -/
def daysInMonth (year : Int) (month : Nat) : Nat :=
  match month with
  | 1 | 3 | 5 | 7 | 8 | 10 | 12 => 31
  | 4 | 6 | 9 | 11 => 30
  | 2 => if isLeapYear year then 29 else 28
  | _ => 0

/-- Whether a year, month and day make a date within the range of years that dates have. -/
def IsDate (year : Int) (month day : Nat) : Prop :=
  -262143 ≤ year ∧ year ≤ 262142 ∧ 1 ≤ day ∧ day ≤ daysInMonth year month

instance (year : Int) (month day : Nat) : Decidable (IsDate year month day) :=
  inferInstanceAs (Decidable (_ ∧ _))

/-- A date. -/
structure Date where
  year : Int
  month : Nat
  day : Nat
  isDate : IsDate year month day
deriving DecidableEq

/-- A time of day. -/
structure Time where
  hour : Nat
  minute : Nat
  second : Nat
  hour_lt : hour < 24
  minute_lt : minute < 60
  second_le : second ≤ 60
deriving DecidableEq

/-- A date and a time of day. -/
structure DateTime where
  date : Date
  time : Time
deriving DecidableEq

/-- The date of the given numbers, if there is one. -/
def Date.of? (year : Int) (month day : Nat) : Option Date :=
  if h : IsDate year month day then some ⟨year, month, day, h⟩ else none

/-- The time of the given numbers, if there is one. -/
def Time.of? (hour minute second : Nat) : Option Time :=
  if h : hour < 24 ∧ minute < 60 ∧ second ≤ 60 then
    some ⟨hour, minute, second, h.1, h.2.1, h.2.2⟩
  else none

/-- Midnight. -/
def Time.midnight : Time := ⟨0, 0, 0, by decide, by decide, by decide⟩

/-- Answers must lie in a year of four digits. -/
def Date.inAnswerRange (date : Date) : Bool :=
  1000 ≤ date.year && date.year ≤ 9999

/-- The months' names. -/
def monthNames : List String :=
  ["January", "February", "March", "April", "May", "June", "July", "August", "September",
    "October", "November", "December"]

/-- The name of a month. -/
def monthName (month : Nat) : String :=
  if month = 0 then "" else monthNames.getD (month - 1) ""

end Questionnaire
