import Questionnaire.Rule.Failure

/-!
# Views

What a page shows, without saying how: labels, inputs, options, messages. A renderer turns views
into markup. A component's view is a tree: the components that a list item reveals, and the inputs
that make up a composite field, are views themselves.
-/

namespace Questionnaire

/-- The label of an input, or the legend of a group of inputs. -/
structure Label where
  text : String := ""
  classes : Option String := none
  /-- Markup that takes the place of the text. -/
  html : Option String := none
  isPageHeading : Bool := false
deriving DecidableEq

/-- What a component shows, apart from the components inside it. -/
structure FieldView where
  label : Option Label := none
  id : Option String := none
  name : Option String := none
  value : Option Json := none
  hint : Option String := none
  classes : Option String := none
  errorMessage : Option String := none
  /-- The type of the input, for a component that is one input. -/
  inputType : Option String := none
  rows : Option Nat := none
  autocomplete : Option String := none
  /-- The legend of the group, for a component that is several inputs. -/
  legend : Option Label := none
  content : Option String := none
  summaryText : Option String := none
  iconFallbackText : Option String := none
deriving DecidableEq

/-- An option to choose, apart from the components it reveals. -/
structure ItemView where
  text : String
  value : Json
  checked : Bool
  hint : Option String := none
  label : Option Label := none
deriving DecidableEq

/-- A component on a page: its type's tag, what it shows, its options and its sub-fields. -/
inductive ComponentView where
  | mk (type : String) (isForm : Bool) (field : FieldView)
      (items : List (ItemView × List ComponentView)) (children : List ComponentView)

namespace ComponentView

/-- Whether the component takes input. -/
def isForm : ComponentView → Bool
  | .mk _ isForm _ _ _ => isForm

/-- What the component shows. -/
def field : ComponentView → FieldView
  | .mk _ _ field _ _ => field

/-- The view with another field view. -/
def withField (field : FieldView) : ComponentView → ComponentView
  | .mk type isForm _ items children => .mk type isForm field items children

end ComponentView

/-- The failures of a submission, under a title. -/
structure ErrorSummary where
  title : String
  failures : List Failure
deriving DecidableEq

/-- The message for a field; of several, the last. -/
def ErrorSummary.messageFor? (summary : ErrorSummary) (name : String) : Option String :=
  (summary.failures.reverse.find? (·.fieldName == name)).map Failure.message

/-- The message for a field, if there are errors and one of them is the field's. -/
def messageFor? (errors : Option ErrorSummary) (name : String) : Option String :=
  errors.bind (·.messageFor? name)

/-- A page. -/
structure PageView where
  path : String
  title : String
  sectionTitle : Option String
  /-- Whether the title stands above the components; otherwise a component's label is the heading. -/
  showTitle : Bool
  components : List ComponentView
  errors : Option ErrorSummary

end Questionnaire
