import Questionnaire.Component.Basic

/-!
# Parts of composite fields

A date entered as numbers, and an address, are several inputs with one answer between them. The name
of a part is the field's name, two underscores, and the part's key.
-/

namespace Questionnaire

/-- The name of a part of a field. -/
def partName (field key : String) : String :=
  field ++ "__" ++ key

/-- A number that is part of a date. -/
structure DatePart where
  key : String
  label : String
  min : Binary64
  max : Binary64
  /-- The class that gives the input's width. -/
  width : String

/-- The parts of a date. -/
def dateParts : List DatePart :=
  [⟨"day", "Day", .ofNat 1, .ofNat 31, "govuk-input--width-2"⟩,
    ⟨"month", "Month", .ofNat 1, .ofNat 12, "govuk-input--width-2"⟩,
    ⟨"year", "Year", .ofNat 1000, .ofNat 3000, "govuk-input--width-4"⟩]

/-- The parts of a time of day. -/
def timeParts : List DatePart :=
  [⟨"hour", "Hour", .ofNat 0, .ofNat 23, "govuk-input--width-2"⟩,
    ⟨"minute", "Minute", .ofNat 0, .ofNat 59, "govuk-input--width-2"⟩]

/-- The parts of a date, or of a date and time. -/
def datePartsOf (withTime : Bool) : List DatePart :=
  if withTime then dateParts ++ timeParts else dateParts

/-- A text that is part of an address. -/
structure AddressPart where
  key : String
  label : String
  /-- Whether an address needs the part. -/
  core : Bool
  autocomplete : String
deriving DecidableEq

/-- The parts of an address. -/
def addressParts : List AddressPart :=
  [⟨"premises", "Building number or name", true, "address-line1"⟩,
    ⟨"street", "Street", false, "address-line2"⟩,
    ⟨"locality", "Locality", false, "address-line3"⟩,
    ⟨"town", "Town or city", true, "address-level2"⟩,
    ⟨"postcode", "Postcode", true, "postal-code"⟩]

end Questionnaire
