import Questionnaire.Definition.Basic

/-!
# Writing definitions

The parts of a definition as JSON. Members that are not set are left out, except for the title and
the section of a page, which are then null.
-/

namespace Questionnaire

/-- A text that may be null. -/
def nullableText (text : Option String) : Json :=
  (text.map Json.str).getD .null

/-- A number, as floating point. -/
def floatJson (x : Binary64) : Json := .num (.float x)

/-- The options of a component. -/
def ComponentOptions.toJson (options : ComponentOptions) : Json :=
  .obj (Fields.ofOptions
    [("required", options.required.map .bool),
      ("classes", options.classes.map .str),
      ("list", options.list.map .str),
      ("bold", options.bold.map .bool),
      ("rows", options.rows.map .ofNat)])

/-- The constraints on a component's answer. -/
def AnswerConstraints.toJson (constraints : AnswerConstraints) : Json :=
  .obj (Fields.ofOptions
    [("min", constraints.min.map floatJson),
      ("max", constraints.max.map floatJson),
      ("trim", constraints.trim.map .bool),
      ("allow", constraints.allow)])

/-- A component. -/
def ComponentDefinition.toJson (d : ComponentDefinition) : Json :=
  .obj (Fields.ofOptions
    [("type", some (.str d.type)),
      ("name", d.name.map .str),
      ("title", d.title.map .str),
      ("hint", d.hint.map .str),
      ("content", d.content.map .str),
      ("icon", d.icon.map .str),
      ("options", some d.options.toJson),
      ("schema", some d.constraints.toJson)])

/-- What an item reveals. -/
def revealedJson (components : List ComponentDefinition) : Json :=
  .obj [("components", .arr (components.map ComponentDefinition.toJson))]

/-- An item of a list. -/
def ListItem.toJson (item : ListItem) : Json :=
  .obj (Fields.ofOptions
    [("text", some (.str item.text)),
      ("value", some item.value),
      ("description", item.description.map .str),
      ("conditional", item.revealed.map revealedJson)])

/-- A list. -/
def ListDefinition.toJson (list : ListDefinition) : Json :=
  .obj (Fields.ofList
    [("name", .str list.name),
      ("title", .str list.title),
      ("type", .str list.type.name),
      ("items", .arr (list.items.map ListItem.toJson))])

/-- A section. -/
def SectionDefinition.toJson (s : SectionDefinition) : Json :=
  .obj (Fields.ofList [("name", .str s.name), ("title", .str s.title)])

/-- A condition. -/
def ConditionDefinition.toJson (condition : ConditionDefinition) : Json :=
  .obj (Fields.ofList [("name", .str condition.name), ("value", .str condition.value)])

/-- A route. -/
def RouteDefinition.toJson (route : RouteDefinition) : Json :=
  .obj (Fields.ofOptions [("path", some (.str route.path)), ("if", route.guard.map .str)])

/-- A page. -/
def PageDefinition.toJson (page : PageDefinition) : Json :=
  .obj (Fields.ofList
    [("path", .str page.path),
      ("title", nullableText page.title),
      ("section", nullableText page.sectionName),
      ("components", .arr (page.components.map ComponentDefinition.toJson)),
      ("next", .arr (page.routes.map RouteDefinition.toJson))])

/-- A whole definition. -/
def FormDefinition.toJson (form : FormDefinition) : Json :=
  .obj (Fields.ofList
    [("pages", .arr (form.pages.map PageDefinition.toJson)),
      ("sections", .arr (form.sections.map SectionDefinition.toJson)),
      ("lists", .arr (form.lists.map ListDefinition.toJson)),
      ("conditions", .arr (form.conditions.map ConditionDefinition.toJson))])

end Questionnaire
