import Questionnaire.View.Basic

/-!
# Writing views

Views as JSON. Members that are not set are left out.
-/

namespace Questionnaire

/-- A label. -/
def Label.toJson (label : Label) : Json :=
  .obj (Fields.ofOptions
    [("text", some (.str label.text)),
      ("classes", label.classes.map .str),
      ("html", label.html.map .str),
      ("isPageHeading", if label.isPageHeading then some (.bool true) else none)])

/-- A text as the one member of an object. -/
def wrapped (key text : String) : Json :=
  .obj [(key, .str text)]

/-- What a component shows, as members. -/
def FieldView.members (field : FieldView) : List (String × Option Json) :=
  [("label", field.label.map Label.toJson),
    ("id", field.id.map .str),
    ("name", field.name.map .str),
    ("value", field.value),
    ("hint", field.hint.map (wrapped "html")),
    ("classes", field.classes.map .str),
    ("errorMessage", field.errorMessage.map (wrapped "text")),
    ("type", field.inputType.map .str),
    ("rows", field.rows.map .ofNat),
    ("autocomplete", field.autocomplete.map .str),
    ("fieldset", field.legend.map fun legend => .obj [("legend", legend.toJson)]),
    ("content", field.content.map .str),
    ("summaryText", field.summaryText.map .str),
    ("iconFallbackText", field.iconFallbackText.map .str)]

/-- An array, unless it is empty. -/
def nonemptyArray (items : List Json) : Option Json :=
  if items.isEmpty then none else some (.arr items)

mutual

/-- What a component shows, with its options and sub-fields. -/
def ComponentView.modelJson : ComponentView → Json
  | .mk _ _ field items children =>
    .obj (Fields.ofOptions (field.members ++
      [("items", nonemptyArray (itemsJson items)), ("children", nonemptyArray (viewsJson children))]))

/-- The options of a component. -/
def itemsJson : List (ItemView × List ComponentView) → List Json
  | [] => []
  | (item, revealed) :: rest =>
    .obj (Fields.ofOptions
      [("text", some (.str item.text)),
        ("value", some item.value),
        ("checked", some (.bool item.checked)),
        ("hint", item.hint.map (wrapped "html")),
        ("label", item.label.map Label.toJson),
        ("conditional", nonemptyArray (viewsJson revealed))]) :: itemsJson rest

/-- A component with its type. -/
def ComponentView.toJson : ComponentView → Json
  | .mk type isForm field items children =>
    .obj (Fields.ofList
      [("type", .str type), ("isFormComponent", .bool isForm),
        ("model", .obj (Fields.ofOptions (field.members ++
          [("items", nonemptyArray (itemsJson items)),
            ("children", nonemptyArray (viewsJson children))])))])

/-- Several components. -/
def viewsJson : List ComponentView → List Json
  | [] => []
  | view :: rest => view.toJson :: viewsJson rest

end

/-- A failure as an entry of an error summary. -/
def Failure.entryJson (failure : Failure) : Json :=
  .obj (Fields.ofList
    [("path", .str failure.dottedPath),
      ("href", .str ("#" ++ failure.fieldName)),
      ("name", .str failure.fieldName),
      ("text", .str failure.message)])

/-- The members of an error summary. -/
def ErrorSummary.fields (summary : ErrorSummary) : Fields :=
  Fields.ofList
    [("titleText", .str summary.title),
      ("errorList", .arr (summary.failures.map Failure.entryJson))]

/-- A page. -/
def PageView.toJson (page : PageView) : Json :=
  .obj (Fields.ofOptions
    [("path", some (.str page.path)),
      ("pageTitle", some (.str page.title)),
      ("sectionTitle", page.sectionTitle.map .str),
      ("showTitle", some (.bool page.showTitle)),
      ("components", some (.arr (viewsJson page.components))),
      ("errors", page.errors.map fun summary => .obj summary.fields)])

end Questionnaire
