import Questionnaire.Component.Parts
import Questionnaire.Calendar.Text
import Questionnaire.State.Basic

/-!
# Conversions of components

How a component turns valid submitted data into state (`Component.toState`), and stored state back
into the data that would submit it (`Component.toForm`).

An answer left blank is stored as null. An answer to a revealed field whose item is not selected is
dropped when it counts as not given.
-/

namespace Questionnaire

/-! ## Single values -/

/--
The number that a text spells, as an integer if it is written as one. A text that spells none stays
a text, for the state's rule to refuse.
-/
def numberOfText (s : String) : Json :=
  let text := Text.trim s
  match int64OfText? text with
  | some i => .ofInt i
  | none =>
    match Binary64.ofText? text with
    | some x => .num (.float x)
    | none => .str text

/-- One answer, under its name. -/
def answer (name : String) (value : Json) : Fields := [(name, value)]

/-- A stored value as the text that submits it, if there is one. -/
def scalarForm (name : String) (state : State) : FormData :=
  match state.get? name with
  | some value => answer name (.str value.formText)
  | none => []

/-- The stored value of a text field. -/
def TextVariant.stored (variant : TextVariant) : Option Json → Json
  | none => .null
  | some (.str s) =>
    if Text.isBlankText s then .null
    else if variant = .number then numberOfText s
    else .str s
  | some value => value

/-- The stored value of a date field: canonical, or as submitted when it is no date. -/
def storedDate (withTime : Bool) : Option Json → Json
  | some (.str s) => if Text.isBlankText s then .null else .str ((canonicalDate? withTime s).getD s)
  | _ => .null

/-- The text that submits the stored value of a date field. -/
def dateForm (withTime : Bool) : Json → String
  | .str s => if withTime then ((DateTime.ofText? s).map DateTime.inputText).getD s else s
  | _ => ""

/-- The stored value of a field without a type. -/
def storedPlain : Option Json → Json
  | some (.str s) => if s = "" then .null else .str s
  | some value => value
  | none => .null

/-! ## Dates in parts -/

/-- A submitted part of a date, as a number of 32 bits without a sign. -/
def partNumber? : Option Json → Option Nat
  | some (.num n) => n.nat?.filter (· < word32Limit)
  | some (.str s) => word32OfText? (Text.trim s)
  | _ => none

/-- A submitted part of a date, as it was typed. -/
def partTyped : Option Json → String
  | some (.str s) => Text.trim s
  | some (.num n) => n.text
  | _ => ""

/-- The parts of a date, as submitted. -/
structure SubmittedDate where
  day : Option Json
  month : Option Json
  year : Option Json
  /-- The hour and the minute, if the field has them. -/
  time : Option (Option Json × Option Json)

/-- The submitted parts of a field. -/
def SubmittedDate.of (withTime : Bool) (name : String) (payload : FormData) : SubmittedDate :=
  let part := fun key => payload.get? (partName name key)
  ⟨part "day", part "month", part "year",
    if withTime then some (part "hour", part "minute") else none⟩

/-- The time of day of the parts, midnight for a field without one. -/
def SubmittedDate.time? (parts : SubmittedDate) : Option Time :=
  match parts.time with
  | none => some .midnight
  | some (hour, minute) => do
    let hour ← partNumber? hour
    let minute ← partNumber? minute
    Time.of? hour minute 0

/-- The canonical text of the parts, if all are there and make a date. -/
def SubmittedDate.assembled? (parts : SubmittedDate) : Option String := do
  let day ← partNumber? parts.day
  let month ← partNumber? parts.month
  let year ← partNumber? parts.year
  let date ← Date.of? year month day
  let time ← parts.time?
  pure (if parts.time.isSome then DateTime.canonical ⟨date, time⟩ else date.canonical)

/-- Whether nothing was typed. -/
def SubmittedDate.isBlank (parts : SubmittedDate) : Bool :=
  let date := partTyped parts.day = "" && partTyped parts.month = "" && partTyped parts.year = ""
  match parts.time with
  | none => date
  | some (hour, minute) => date && partTyped hour = "" && partTyped minute = ""

/-- The parts as typed, in the layout of a stored date. -/
def SubmittedDate.typed (parts : SubmittedDate) : String :=
  let date := partTyped parts.year ++ "-" ++ partTyped parts.month ++ "-" ++ partTyped parts.day
  match parts.time with
  | none => date
  | some (hour, minute) => date ++ "T" ++ partTyped hour ++ ":" ++ partTyped minute

/-- The stored value: null only when nothing was typed, and what was typed when it is no date. -/
def SubmittedDate.stored (parts : SubmittedDate) : Json :=
  match parts.assembled? with
  | some text => .str text
  | none => if parts.isBlank then .null else .str parts.typed

/-- The numbers of a moment, in the order of the parts. -/
def DateTime.numbers (moment : DateTime) : List Nat :=
  [moment.date.day, moment.date.month, moment.date.year.natAbs, moment.time.hour,
    moment.time.minute]

/-- The parts that submit a stored date. -/
def datePartsForm (withTime : Bool) (name : String) (state : State) : FormData :=
  match (state.get? name).bind Json.str? with
  | none => []
  | some text =>
    let moment :=
      if withTime then DateTime.ofText? text else (Date.ofText? text).map Date.atMidnight
    match moment with
    | none => []
    | some moment =>
      Fields.ofList (((datePartsOf withTime).zip moment.numbers).map fun (part, n) =>
        (partName name part.key, .str (toString n)))

/-! ## Addresses -/

/-- A submitted part of an address. -/
def addressText (name : String) (payload : FormData) (part : AddressPart) : String :=
  Text.trim (((payload.get? (partName name part.key)).bind Json.str?).getD "")

/-- The stored address: null when all parts are empty. -/
def storedAddress (name : String) (payload : FormData) : Json :=
  if addressParts.all fun part => addressText name payload part = "" then .null
  else
    .obj (Fields.ofList (addressParts.map fun part =>
      (part.key, .str (addressText name payload part))))

/-- The parts that submit a stored address. -/
def addressForm (name : String) (state : State) : FormData :=
  match state.get? name with
  | some (.obj address) =>
    Fields.ofList (addressParts.map fun part =>
      (partName name part.key, .str (((Fields.get? address part.key).bind Json.str?).getD "")))
  | _ => []

/-! ## Choices -/

/-- A submitted value in the type of a list. -/
def ListType.coerce (type : ListType) (value : Json) : Json :=
  match type, value with
  | .number, .str s => numberOfText s
  | .boolean, .str s =>
    let word := Text.trim s
    if word = "true" then .bool true else if word = "false" then .bool false else value
  | _, value => value

/-- The stored value of a choice. -/
def storedChoice (type : ListType) : Option Json → Json
  | none => .null
  | some (.arr items) => .arr (items.map type.coerce)
  | some value => if value = .str "" then .null else type.coerce value

/-- The data that submits a stored choice. -/
def choiceForm : Json → Json
  | .arr items => .arr (items.map fun item => .str item.formText)
  | value => .str value.formText

/-! ## Components -/

namespace SingleKind

/-- The state made of valid submitted data. -/
def toState (kind : SingleKind) (d : ComponentDefinition) (payload : FormData) : State :=
  let name := d.nameText
  match kind with
  | .text variant => answer name (variant.stored (payload.get? name))
  | .date withTime => answer name (storedDate withTime (payload.get? name))
  | .dateParts withTime => answer name (SubmittedDate.of withTime name payload).stored
  | .address => answer name (storedAddress name payload)
  | .content _ => []
  | .plain => answer name (storedPlain (payload.get? name))

/-- The data that submits the stored state. -/
def toForm (kind : SingleKind) (d : ComponentDefinition) (state : State) : FormData :=
  let name := d.nameText
  match kind with
  | .text _ | .plain => scalarForm name state
  | .date withTime =>
    match state.get? name with
    | some value => answer name (.str (dateForm withTime value))
    | none => []
  | .dateParts withTime => datePartsForm withTime name state
  | .address => addressForm name state
  | .content _ => []

end SingleKind

/-- The answers worth keeping of fields that an item reveals. -/
def keptAnswers (selected : Bool) (answers : State) : State :=
  answers.filter fun (_, value) => selected || value.isTruthy

mutual

/-- The state made of valid submitted data. -/
def Component.toState (payload : FormData) : Component → State
  | .single kind d => kind.toState d payload
  | .choice _ d list reveals =>
    let value := storedChoice list.type (payload.get? d.nameText)
    Fields.insert d.nameText value (revealedToState payload value [] reveals)

/-- The state that a group of components adds to a state. -/
def addToState (payload : FormData) (state : State) : List Component → State
  | [] => state
  | c :: rest => addToState payload (Fields.extend state (c.toState payload)) rest

/-- The state that the fields revealed by a choice add to a state. -/
def revealedToState (payload : FormData) (chosen : Json) (state : State) :
    List (Nat × Json × List Component) → State
  | [] => state
  | (_, item, components) :: rest =>
    let answers := keptAnswers (chosen.selects item) (addToState payload [] components)
    revealedToState payload chosen (Fields.extend state answers) rest

end

mutual

/-- The data that submits the stored state. -/
def Component.toForm (state : State) : Component → FormData
  | .single kind d => kind.toForm d state
  | .choice _ d _ reveals =>
    let own := match state.get? d.nameText with
      | some value => answer d.nameText (choiceForm value)
      | none => []
    revealedToForm state own reveals

/-- The data that a group of components adds to submitted data. -/
def addToForm (state : State) (data : FormData) : List Component → FormData
  | [] => data
  | c :: rest => addToForm state (Fields.extend data (c.toForm state)) rest

/-- The data that the fields revealed by a choice add to submitted data. -/
def revealedToForm (state : State) (data : FormData) :
    List (Nat × Json × List Component) → FormData
  | [] => data
  | (_, _, components) :: rest =>
    revealedToForm state (Fields.extend data (addToForm state [] components)) rest

end

/-- The state made of valid submitted data. -/
def toState (components : List Component) (payload : FormData) : State :=
  addToState payload [] components

/-- The data that submits the stored state. -/
def toForm (components : List Component) (state : State) : FormData :=
  addToForm state [] components

end Questionnaire
