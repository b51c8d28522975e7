import Questionnaire.Calendar.Layout

/-!
# Dates as answers

The texts by which dates and date-times are submitted, stored and shown. An answer is stored in one
canonical layout and is read in any of several; the first layout that a text fits decides, and only
then is the year checked to have four digits.
-/

namespace Questionnaire

/-- `2024-03-05`. -/
def dateLayout : Layout :=
  [.year, .mark '-', .month, .mark '-', .day]

/-- `05/03/2024`. -/
def slashLayout : Layout :=
  [.day, .mark '/', .month, .mark '/', .year]

/-- `5 March 2024`. -/
def wordLayout : Layout :=
  [.plainDay, .space, .monthName, .space, .year]

/-- `14:30`. -/
def minuteLayout : Layout :=
  [.hour, .mark ':', .minute]

/-- `14:30:00`. -/
def secondLayout : Layout :=
  minuteLayout ++ [.mark ':', .second]

/-- `2024-03-05T14:30:00`. -/
def dateTimeLayout : Layout :=
  dateLayout ++ [.mark 'T'] ++ secondLayout

/-- `2024-03-05T14:30`. -/
def inputLayout : Layout :=
  dateLayout ++ [.mark 'T'] ++ minuteLayout

/-- `5 March 2024 14:30`. -/
def wordTimeLayout : Layout :=
  wordLayout ++ [.space] ++ minuteLayout

/-- The layouts a date is read in, in order. -/
def dateLayouts : List Layout :=
  [dateLayout, slashLayout, wordLayout]

/-- The layouts a date-time is read in, in order. -/
def dateTimeLayouts : List Layout :=
  [dateTimeLayout, inputLayout, dateLayout ++ [.space] ++ secondLayout,
    dateLayout ++ [.space] ++ minuteLayout, slashLayout ++ [.space] ++ minuteLayout]

/-- Reads a date-time. -/
def DateTime.ofText? (s : String) : Option DateTime :=
  (dateTimeLayouts.findSome? fun layout =>
    (layout.read? (Text.trimmed s.toList)).bind MomentParts.dateTime?).filter (·.date.inAnswerRange)

/-- Reads a date. A date-time is taken for its date. -/
def Date.ofText? (s : String) : Option Date :=
  let written := dateLayouts.findSome? fun layout =>
    (layout.read? (Text.trimmed s.toList)).bind MomentParts.date?
  (written.or ((DateTime.ofText? s).map DateTime.date)).filter Date.inAnswerRange

/-- The date at midnight. -/
def Date.atMidnight (date : Date) : DateTime := ⟨date, .midnight⟩

/-- The text a date is stored as. -/
def Date.canonical (date : Date) : String :=
  dateLayout.write date.atMidnight.parts

/-- The text a date-time is stored as. -/
def DateTime.canonical (moment : DateTime) : String :=
  dateTimeLayout.write moment.parts

/-- A date as a reader sees it: `5 March 2024`. -/
def Date.display (date : Date) : String :=
  wordLayout.write date.atMidnight.parts

/-- A date-time as a reader sees it: `5 March 2024 14:30`. -/
def DateTime.display (moment : DateTime) : String :=
  wordTimeLayout.write moment.parts

/-- The text a date-time input shows; the seconds appear only when there are any. -/
def DateTime.inputText (moment : DateTime) : String :=
  if moment.time.second = 0 then inputLayout.write moment.parts else moment.canonical

/-- The canonical text of what a text denotes, as a date or as a date-time. -/
def canonicalDate? (withTime : Bool) (s : String) : Option String :=
  if withTime then (DateTime.ofText? s).map DateTime.canonical
  else (Date.ofText? s).map Date.canonical

/-- A stored text as a reader sees it; a text that is no date stays as it is. -/
def displayStored (withTime : Bool) (s : String) : String :=
  let shown :=
    if withTime then (DateTime.ofText? s).map DateTime.display
    else (Date.ofText? s).map Date.display
  shown.getD s

end Questionnaire
