import Questionnaire.Component.Conversion
import Questionnaire.View.Basic

/-!
# Views of components

What a component shows for given form data and errors. Values are those of the form data, as they
were typed; an error appears at the field, or at the sub-field, that it names, and a composite field
also shows the first error of its parts.
-/

namespace Questionnaire

/-- The title, marked when the field is optional. -/
def ComponentDefinition.labelText (d : ComponentDefinition) : String :=
  if d.isOptional then d.titleText ++ " (optional)" else d.titleText

/-- The view that every field starts from. -/
def baseView (d : ComponentDefinition) (data : FormData) (errors : Option ErrorSummary) :
    FieldView :=
  { label := some { text := d.labelText, classes := some "govuk-label--s" }
    id := some d.nameText
    name := some d.nameText
    value := data.get? d.nameText
    hint := d.hint
    classes := d.options.classes
    errorMessage := messageFor? errors d.nameText }

/-- What a kind of text field adds. -/
def TextVariant.decorate (variant : TextVariant) (d : ComponentDefinition) (view : FieldView) :
    FieldView :=
  match variant with
  | .line => view
  | .multiline => { view with rows := d.options.rows }
  | .telephone => { view with inputType := some "tel", autocomplete := some "tel" }
  | .email => { view with inputType := some "email", autocomplete := some "email" }
  | .number =>
    { view with
      inputType := some "number"
      classes := view.classes.or (some "govuk-input--width-5") }

/-- A date field. -/
def dateView (withTime : Bool) (view : FieldView) : FieldView :=
  if withTime then { view with inputType := some "datetime-local" }
  else
    { view with
      inputType := some "date"
      classes := view.classes.or (some "govuk-input--width-10") }

/-- A part of a date. -/
def DatePart.view (part : DatePart) (field : String) (data : FormData)
    (errors : Option ErrorSummary) : ComponentView :=
  let name := partName field part.key
  let failed := (messageFor? errors name).isSome
  .mk "NumberField" true
    { label := some { text := part.label }
      id := some name
      name := some name
      value := data.get? name
      classes := some (if failed then part.width ++ " govuk-input--error" else part.width)
      inputType := some "number" }
    [] []

/-- The classes of the legend of a composite field. -/
def legendClasses : String := "govuk-fieldset__legend--s"

/-- A date in parts, which has no value of its own. -/
def datePartsView (withTime : Bool) (d : ComponentDefinition) (data : FormData)
    (errors : Option ErrorSummary) : FieldView :=
  let view := baseView d data errors
  let partMessage :=
    (datePartsOf withTime).findSome? fun part => messageFor? errors (partName d.nameText part.key)
  { view with
    label := none
    value := none
    errorMessage := view.errorMessage.or partMessage
    legend := some { text := d.labelText, classes := some legendClasses } }

/-- A part of an address. -/
def AddressPart.view (part : AddressPart) (d : ComponentDefinition) (data : FormData)
    (errors : Option ErrorSummary) : ComponentView :=
  let name := partName d.nameText part.key
  let optional := !part.core || d.isOptional
  .mk "TextField" true
    { label := some { text := if optional then part.label ++ " (optional)" else part.label }
      id := some name
      name := some name
      value := data.get? name
      classes := if part.key = "postcode" then some "govuk-input--width-10" else none
      autocomplete := some part.autocomplete
      errorMessage := messageFor? errors name }
    [] []

/-- An address. -/
def addressView (d : ComponentDefinition) (errors : Option ErrorSummary) : FieldView :=
  let partMessage :=
    addressParts.findSome? fun part => messageFor? errors (partName d.nameText part.key)
  { legend := some { text := d.labelText, classes := some legendClasses }
    id := some d.nameText
    name := some d.nameText
    hint := d.hint
    classes := d.options.classes
    errorMessage := (messageFor? errors d.nameText).or partMessage }

/-- A block of content. -/
def ContentVariant.view (variant : ContentVariant) (d : ComponentDefinition) : FieldView :=
  match variant with
  | .para | .html | .insetText => { content := d.content }
  | .details => { summaryText := d.title, content := d.content }
  | .warningText => { content := d.content, iconFallbackText := d.icon }

/-- A field without a type, whose message stands in place of a summary. -/
def plainView (d : ComponentDefinition) (data : FormData) (errors : Option ErrorSummary) :
    FieldView :=
  { name := some d.nameText
    value := data.get? d.nameText
    summaryText := messageFor? errors d.nameText }

/-- A component that chooses from no list. -/
def SingleKind.view (kind : SingleKind) (d : ComponentDefinition) (data : FormData)
    (errors : Option ErrorSummary) : ComponentView :=
  match kind with
  | .text variant => .mk d.type true (variant.decorate d (baseView d data errors)) [] []
  | .date withTime => .mk d.type true (dateView withTime (baseView d data errors)) [] []
  | .dateParts withTime =>
    .mk d.type true (datePartsView withTime d data errors) []
      ((datePartsOf withTime).map fun part => part.view d.nameText data errors)
  | .address =>
    .mk d.type true (addressView d errors) [] (addressParts.map fun part => part.view d data errors)
  | .content variant => .mk d.type false (variant.view d) [] []
  | .plain => .mk d.type true (plainView d data errors) [] []

/-- What a choice shows beside its options. -/
def ChoiceVariant.decorate (variant : ChoiceVariant) (view : FieldView) : FieldView :=
  match variant with
  | .select => view
  | .yesNo =>
    { view with classes := view.classes.or (some "govuk-radios--inline"), legend := view.label }
  | .radios | .checkboxes => { view with legend := view.label }

/-- The options of a choice; `revealed` gives the components of an item by its index. -/
def choiceItems (d : ComponentDefinition) (list : ListDefinition) (selected : Json)
    (revealed : Nat → List ComponentView) : List (ItemView × List ComponentView) :=
  list.items.zipIdx.map fun (item, i) =>
    ({ text := item.text
       value := item.value
       checked := selected.selects item.value
       hint := item.description
       label :=
          if d.options.bold = some true then some { classes := some "govuk-label--s" } else none },
      revealed i)

/-- The first option of a select, which stands for no choice. -/
def blankItem (items : List (ItemView × List ComponentView)) : ItemView :=
  { text := "", value := .str "", checked := !items.any (·.1.checked) }

/-- The options that a choice shows. -/
def ChoiceVariant.items (variant : ChoiceVariant) (items : List (ItemView × List ComponentView)) :
    List (ItemView × List ComponentView) :=
  if variant = .select then (blankItem items, []) :: items else items

mutual

/-- What a component shows. -/
def Component.view (data : FormData) (errors : Option ErrorSummary) : Component → ComponentView
  | .single kind d => kind.view d data errors
  | .choice variant d list reveals =>
    let selected := (data.get? d.nameText).getD .null
    let revealed := revealedViews data errors reveals
    let items := choiceItems d list selected fun i => (revealed.lookup i).getD []
    .mk d.type true (variant.decorate (baseView d data errors)) (variant.items items) []

/-- What a group of components shows. -/
def componentViews (data : FormData) (errors : Option ErrorSummary) :
    List Component → List ComponentView
  | [] => []
  | c :: rest => c.view data errors :: componentViews data errors rest

/-- What the components revealed by each item show, by the item's index. -/
def revealedViews (data : FormData) (errors : Option ErrorSummary) :
    List (Nat × Json × List Component) → List (Nat × List ComponentView)
  | [] => []
  | (i, _, components) :: rest =>
    (i, componentViews data errors components) :: revealedViews data errors rest

end

end Questionnaire
