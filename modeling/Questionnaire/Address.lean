import Questionnaire.State.Basic

/-!
# Address matches

One address out of the answers of a postcode search, and the form data that choosing it submits.
-/

namespace Questionnaire

/-- An address found for a postcode. -/
structure AddressMatch where
  /-- The unique property reference number. -/
  uprn : String
  /-- The whole address on one line. -/
  address : String
  premises : String
  street : String
  locality : String
  town : String
  postcode : String
deriving DecidableEq

namespace AddressMatch

/-- A member of a record as text: empty when it is missing, as JSON when it is no text. -/
def recordText (record : Json) (key : String) : String :=
  match record.obj?.bind (·.get? key) with
  | none => ""
  | some (.str s) => s
  | some value => value.compress

/-- A match from a search record, which must have a reference number. A building without a number
goes by its name. -/
def ofRecord? (record : Json) : Option AddressMatch :=
  let uprn := recordText record "UPRN"
  if uprn = "" then none
  else
    let number := recordText record "BUILDING_NUMBER"
    some
      { uprn
        address := recordText record "ADDRESS"
        premises := if number = "" then recordText record "BUILDING_NAME" else number
        street := recordText record "THOROUGHFARE_NAME"
        locality := recordText record "DEPENDENT_LOCALITY"
        town := recordText record "POST_TOWN"
        postcode := recordText record "POSTCODE" }

/-- The data that submits a match through the address field of the given name. -/
def formData (found : AddressMatch) (field : String) : FormData :=
  Fields.ofList
    [(field ++ "__premises", .str found.premises),
      (field ++ "__street", .str found.street),
      (field ++ "__locality", .str found.locality),
      (field ++ "__town", .str found.town),
      (field ++ "__postcode", .str found.postcode)]

/-- The match as JSON. -/
def toJson (found : AddressMatch) : Json :=
  .obj (Fields.ofList
    [("uprn", .str found.uprn),
      ("address", .str found.address),
      ("premises", .str found.premises),
      ("street", .str found.street),
      ("locality", .str found.locality),
      ("town", .str found.town),
      ("postcode", .str found.postcode)])

end AddressMatch

end Questionnaire
