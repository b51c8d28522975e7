import Questionnaire.Json.Basic

/-!
# Form definitions

The authoring format of a questionnaire: pages with components and routes, the sections that group
pages, the lists that fields choose from, and named conditions. These are plain data; nothing here
has been checked against anything else.
-/

namespace Questionnaire

/-- The type of the values of a list. -/
inductive ListType where
  | string
  | number
  | boolean
deriving DecidableEq

namespace ListType

/-- The type's name. -/
def name : ListType → String
  | .string => "string"
  | .number => "number"
  | .boolean => "boolean"

/-- All types. -/
def all : List ListType := [.string, .number, .boolean]

/-- The type of a name. -/
def ofName? (name : String) : Option ListType :=
  all.find? (·.name == name)

/-- Whether a value is of the type. -/
def admits : ListType → Json → Bool
  | .string, .str _ => true
  | .number, .num _ => true
  | .boolean, .bool _ => true
  | _, _ => false

end ListType

/-- How a component is presented, and which list it chooses from. -/
structure ComponentOptions where
  required : Option Bool := none
  classes : Option String := none
  list : Option String := none
  bold : Option Bool := none
  rows : Option Nat := none
deriving DecidableEq

/-- Constraints on a component's answer. -/
structure AnswerConstraints where
  min : Option Binary64 := none
  max : Option Binary64 := none
  trim : Option Bool := none
  /-- A value, or an array of values, accepted as it is. -/
  allow : Option Json := none
deriving DecidableEq

/-- A component as it is written. -/
structure ComponentDefinition where
  /-- The tag of the component's type. -/
  type : String
  name : Option String := none
  title : Option String := none
  hint : Option String := none
  content : Option String := none
  icon : Option String := none
  options : ComponentOptions := {}
  constraints : AnswerConstraints := {}
deriving DecidableEq

namespace ComponentDefinition

/-- The title, empty when there is none. -/
def titleText (d : ComponentDefinition) : String :=
  d.title.getD ""

/-- The name, empty when there is none. -/
def nameText (d : ComponentDefinition) : String :=
  d.name.getD ""

/-- A field is optional only when that is said. -/
def isOptional (d : ComponentDefinition) : Bool :=
  d.options.required == some false

end ComponentDefinition

/-- An item of a list, and the components that are revealed while it is selected. -/
structure ListItem where
  text : String
  value : Json
  description : Option String := none
  revealed : Option (List ComponentDefinition) := none
deriving DecidableEq

/-- A list of values to choose from. -/
structure ListDefinition where
  name : String
  title : String
  type : ListType
  items : List ListItem
deriving DecidableEq

/-- The values of a list, in order. -/
def ListDefinition.values (list : ListDefinition) : List Json :=
  list.items.map ListItem.value

/-- A named group of pages. -/
structure SectionDefinition where
  name : String
  title : String
deriving DecidableEq

/-- A named condition, as the text of its expression. -/
structure ConditionDefinition where
  name : String
  value : String
deriving DecidableEq

/-- A route to another page, taken under a condition if it has one. -/
structure RouteDefinition where
  path : String
  /-- The name of a condition, or an expression. -/
  guard : Option String := none
deriving DecidableEq

/-- A page as it is written. -/
structure PageDefinition where
  path : String
  title : Option String := none
  sectionName : Option String := none
  components : List ComponentDefinition := []
  routes : List RouteDefinition := []
deriving DecidableEq

/-- A whole questionnaire as it is written. -/
structure FormDefinition where
  pages : List PageDefinition
  sections : List SectionDefinition := []
  lists : List ListDefinition := []
  conditions : List ConditionDefinition := []
deriving DecidableEq

/-- The list of a name; of several, the last. -/
def findList? (lists : List ListDefinition) (name : String) : Option ListDefinition :=
  lists.reverse.find? (·.name == name)

end Questionnaire
