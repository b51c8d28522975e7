import Questionnaire.State.Basic

/-!
# Failures

What can be wrong with a value. A failure has a place, the name by which its message calls the
value, and a cause (`Fault`); the message and the failure's code are read off the cause.
-/

namespace Questionnaire

/-- Why a value is refused. -/
inductive Fault where
  | missing
  | notAmong (choices : List Json)
  | notText
  | emptyText
  | tooShort (min : Nat)
  | tooLong (max : Nat)
  | notEmail
  | notMatching (text : String) (source : String)
  | notNumber
  | notWhole
  | tooSmall (min : Float64)
  | tooLarge (max : Float64)
  | notBoolean
  | notDate
  | notDateTime
  | notObject
  | unknownKey
  | notArray
  | noAlternative
deriving DecidableEq

namespace Fault

/-- The code of a cause. -/
def code : Fault → String
  | .missing => "any.required"
  | .notAmong _ => "any.only"
  | .notText => "string.base"
  | .emptyText => "string.empty"
  | .tooShort _ => "string.min"
  | .tooLong _ => "string.max"
  | .notEmail => "string.email"
  | .notMatching _ _ => "string.pattern.base"
  | .notNumber => "number.base"
  | .notWhole => "number.integer"
  | .tooSmall _ => "number.min"
  | .tooLarge _ => "number.max"
  | .notBoolean => "boolean.base"
  | .notDate => "date.base"
  | .notDateTime => "date.base"
  | .notObject => "object.base"
  | .unknownKey => "object.unknown"
  | .notArray => "array.base"
  | .noAlternative => "alternatives.types"

/-- What a message says about the value it names. -/
def wording : Fault → String
  | .missing => "is required"
  | .notAmong choices =>
    "must be one of [" ++ String.intercalate ", " (choices.map Json.formText) ++ "]"
  | .notText => "must be a string"
  | .emptyText => "is not allowed to be empty"
  | .tooShort min => "length must be at least " ++ toString min ++ " characters long"
  | .tooLong max => "length must be less than or equal to " ++ toString max ++ " characters long"
  | .notEmail => "must be a valid email"
  | .notMatching text source =>
    "with value \"" ++ text ++ "\" fails to match the required pattern: /" ++ source ++ "/"
  | .notNumber => "must be a number"
  | .notWhole => "must be an integer"
  | .tooSmall min => "must be greater than or equal to " ++ min.plain
  | .tooLarge max => "must be less than or equal to " ++ max.plain
  | .notBoolean => "must be a boolean"
  | .notDate => "must be a valid date"
  | .notDateTime => "must be a valid date and time"
  | .notObject => "must be of type object"
  | .unknownKey => "is not allowed"
  | .notArray => "must be an array"
  | .noAlternative => "does not match any of the allowed types"

end Fault

/-- One failure. -/
structure Failure where
  /-- The keys and indices that lead from the validated value to the failing one. -/
  path : List String
  /-- The name of the failing value. -/
  label : String
  fault : Fault
deriving DecidableEq

namespace Failure

/-- The message of a failure. -/
def message (failure : Failure) : String :=
  "\"" ++ failure.label ++ "\" " ++ failure.fault.wording

/-- The place with points between its steps. -/
def dottedPath (failure : Failure) : String :=
  String.intercalate "." failure.path

/-- The name of the form field at the failure's place. -/
def fieldName (failure : Failure) : String :=
  String.intercalate "__" failure.path

/-- The failure as seen from one step further out. -/
def under (step : String) (failure : Failure) : Failure :=
  { failure with path := step :: failure.path }

end Failure

/-- The message for all failures of one value together. -/
def validationMessage (failures : List Failure) : String :=
  "Validation failed: " ++ String.intercalate ". " (failures.map Failure.message)

end Questionnaire
