import Questionnaire.Definition.Basic

/-!
# The structure of a definition

Checks that a JSON value has the form of a questionnaire's definition: which members there are, of
what type, and which names must differ or be declared. All issues are found in one go, each with its
place. The issues of a part depend on that part alone, apart from names used twice and sections that
must be declared.
-/

namespace Questionnaire

/-- One step from a value to a part of it. -/
inductive Step where
  | key (name : String)
  | index (i : Nat)
deriving DecidableEq

/-- A place in a definition. -/
abbrev Place := List Step

/-- A place with one more step, as text: `lists[0].items[2]`. -/
def Step.extend (text : String) : Step → String
  | .key name => if text = "" then name else text ++ "." ++ name
  | .index i => text ++ "[" ++ toString i ++ "]"

/-- A place as text. -/
def Place.text (place : Place) : String :=
  place.foldl Step.extend ""

/-- What is wrong at a place. -/
inductive StructureFault where
  | notObject
  | notArray
  | notText
  | notBoolean
  | notNumber
  | notCount
  | missing
  | unknownKey
  | relativePath (path : String)
  | undeclaredSection (name : String)
  | unknownListType (name : String)
  | wrongItemType (expected : ListType)
  | duplicate (what name : String)
deriving DecidableEq

/-- The wording of a fault. -/
def StructureFault.message : StructureFault → String
  | .notObject => "must be an object"
  | .notArray => "must be an array"
  | .notText => "must be a string"
  | .notBoolean => "must be a boolean"
  | .notNumber => "must be a number"
  | .notCount => "must be a whole number of at least 0"
  | .missing => "is required"
  | .unknownKey => "is not allowed"
  | .relativePath path => "\"" ++ path ++ "\" must start with '/'"
  | .undeclaredSection name => "\"" ++ name ++ "\" is not a declared section"
  | .unknownListType name =>
    "\"" ++ name ++ "\" must be one of [" ++
      String.intercalate ", " (ListType.all.map ListType.name) ++ "]"
  | .wrongItemType expected => "must be a " ++ expected.name
  | .duplicate what name => "duplicate " ++ what ++ " \"" ++ name ++ "\""

/-- A fault and its place. -/
structure StructureIssue where
  place : Place
  fault : StructureFault
deriving DecidableEq

/-- The issue with its place, when that is not the definition itself. -/
def StructureIssue.text (issue : StructureIssue) : String :=
  if issue.place.text = "" then issue.fault.message
  else issue.place.text ++ ": " ++ issue.fault.message

namespace Structure

/-! ## Members of one object -/

/-- Refuses members other than those named. -/
def keyIssues (allowed : List String) (fields : Fields) (place : Place) : List StructureIssue :=
  (fields.filter fun member => !allowed.contains member.1).map fun member =>
    ⟨place ++ [.key member.1], .unknownKey⟩

/-- Checks a member, if it is there, by a test. -/
def memberIssues (test : Json → Bool) (fault : StructureFault) (fields : Fields) (place : Place)
    (key : String) : List StructureIssue :=
  match fields.get? key with
  | some value => if test value then [] else [⟨place ++ [.key key], fault⟩]
  | none => []

/-- Checks that a member is there. -/
def missingIssues (fields : Fields) (place : Place) (key : String) : List StructureIssue :=
  if fields.has key then [] else [⟨place ++ [.key key], .missing⟩]

/-- Checks a member that may be missing and must be a text. -/
def optionalTextIssues (fields : Fields) (place : Place) (key : String) : List StructureIssue :=
  memberIssues (·.str?.isSome) .notText fields place key

/-- Checks a member that must be there and be a text. -/
def textIssues (fields : Fields) (place : Place) (key : String) : List StructureIssue :=
  missingIssues fields place key ++ optionalTextIssues fields place key

/-- Checks a member that may be missing and must be a boolean. -/
def booleanIssues (fields : Fields) (place : Place) (key : String) : List StructureIssue :=
  memberIssues (fun j => match j with | .bool _ => true | _ => false) .notBoolean fields place key

/-- Checks a member that may be missing and must be a number. -/
def numberIssues (fields : Fields) (place : Place) (key : String) : List StructureIssue :=
  memberIssues (fun j => match j with | .num _ => true | _ => false) .notNumber fields place key

/-- Whether a value is an integer of 32 bits without a sign. -/
def isCount : Json → Bool
  | .num n => n.nat?.any (· < word32Limit)
  | _ => false

/-- Checks a member that may be missing and must be a count. -/
def countIssues (fields : Fields) (place : Place) (key : String) : List StructureIssue :=
  memberIssues isCount .notCount fields place key

/-- The text of a member, if it is one. -/
def text? (fields : Fields) (key : String) : Option String :=
  (fields.get? key).bind Json.str?

/-! ## Objects in an object, and in an array -/

/-- Checks a value that must be an object. -/
def objectIssues (visit : Fields → Place → List StructureIssue) (value : Json) (place : Place) :
    List StructureIssue :=
  match value with
  | .obj fields => visit fields place
  | _ => [⟨place, .notObject⟩]

/-- Checks a member that may be missing and must be an object. -/
def insideIssues (visit : Fields → Place → List StructureIssue) (fields : Fields) (place : Place)
    (key : String) : List StructureIssue :=
  match fields.get? key with
  | some value => objectIssues visit value (place ++ [.key key])
  | none => []

/-- Checks a member that must be an array of objects. -/
def eachIssues (visit : Fields → Place → List StructureIssue) (fields : Fields) (place : Place)
    (key : String) : List StructureIssue :=
  match fields.get? key with
  | none => []
  | some (.arr items) =>
    items.zipIdx.flatMap fun (item, i) => objectIssues visit item (place ++ [.key key, .index i])
  | some _ => [⟨place ++ [.key key], .notArray⟩]

/-- The texts under one key of the objects in an array, with their indices. -/
def namesIn (fields : Fields) (key nameKey : String) : List (String × Nat) :=
  match fields.get? key with
  | some (.arr items) =>
    items.zipIdx.filterMap fun (item, i) =>
      (item.obj?.bind fun fields => text? fields nameKey).map (·, i)
  | _ => []

/-- The names that an earlier object of the array already has. -/
def duplicateIssues (what : String) (fields : Fields) (key nameKey : String) :
    List StructureIssue :=
  let names := namesIn fields key nameKey
  (names.filter fun (name, i) => names.any fun (other, j) => other == name && j < i).map
    fun (name, i) => ⟨[.key key, .index i], .duplicate what name⟩

/-! ## Parts of a definition -/

/-- The options of a component. -/
def optionsIssues (fields : Fields) (place : Place) : List StructureIssue :=
  booleanIssues fields place "required" ++ booleanIssues fields place "bold" ++
    optionalTextIssues fields place "classes" ++ optionalTextIssues fields place "list" ++
    countIssues fields place "rows"

/-- The constraints on a component's answer. -/
def constraintsIssues (fields : Fields) (place : Place) : List StructureIssue :=
  numberIssues fields place "min" ++ numberIssues fields place "max" ++
    booleanIssues fields place "trim"

/-- A component. -/
def componentIssues (fields : Fields) (place : Place) : List StructureIssue :=
  keyIssues ["type", "name", "title", "hint", "content", "icon", "options", "schema"] fields place ++
    textIssues fields place "type" ++
    ["name", "title", "hint", "content", "icon"].flatMap (optionalTextIssues fields place) ++
    insideIssues optionsIssues fields place "options" ++
    insideIssues constraintsIssues fields place "schema"

/-- The components of a page or of an item. -/
def componentsIssues (fields : Fields) (place : Place) : List StructureIssue :=
  eachIssues componentIssues fields place "components"

/-- What an item reveals. -/
def revealIssues (fields : Fields) (place : Place) : List StructureIssue :=
  keyIssues ["components"] fields place ++ componentsIssues fields place

/-- The value of an item, which must be of its list's type. -/
def valueIssues (type? : Option ListType) (fields : Fields) (place : Place) : List StructureIssue :=
  missingIssues fields place "value" ++
    match type? with
    | some type => memberIssues type.admits (.wrongItemType type) fields place "value"
    | none => []

/-- An item of a list. -/
def itemIssues (type? : Option ListType) (fields : Fields) (place : Place) : List StructureIssue :=
  keyIssues ["text", "value", "description", "conditional"] fields place ++
    textIssues fields place "text" ++
    optionalTextIssues fields place "description" ++
    valueIssues type? fields place ++
    insideIssues revealIssues fields place "conditional"

/-- The type of a list, which must be one of those there are. -/
def listTypeIssues (fields : Fields) (place : Place) : List StructureIssue :=
  textIssues fields place "type" ++
    match text? fields "type" with
    | some name =>
      if (ListType.ofName? name).isSome then []
      else [⟨place ++ [.key "type"], .unknownListType name⟩]
    | none => []

/-- A list. -/
def listIssues (fields : Fields) (place : Place) : List StructureIssue :=
  keyIssues ["name", "title", "type", "items"] fields place ++
    textIssues fields place "title" ++
    listTypeIssues fields place ++
    missingIssues fields place "items" ++
    eachIssues (itemIssues ((text? fields "type").bind ListType.ofName?)) fields place "items" ++
    textIssues fields place "name"

/-- A section. -/
def sectionIssues (fields : Fields) (place : Place) : List StructureIssue :=
  keyIssues ["name", "title"] fields place ++ textIssues fields place "title" ++
    textIssues fields place "name"

/-- A condition. -/
def conditionIssues (fields : Fields) (place : Place) : List StructureIssue :=
  keyIssues ["name", "value"] fields place ++ textIssues fields place "name" ++
    textIssues fields place "value"

/-- A route. -/
def routeIssues (fields : Fields) (place : Place) : List StructureIssue :=
  keyIssues ["path", "if"] fields place ++ textIssues fields place "path" ++
    optionalTextIssues fields place "if"

/-- The path of a page, which must start with a slash. -/
def pathIssues (fields : Fields) (place : Place) : List StructureIssue :=
  textIssues fields place "path" ++
    match text? fields "path" with
    | some path =>
      if path.toList.head? = some '/' then [] else [⟨place ++ [.key "path"], .relativePath path⟩]
    | none => []

/-- The section of a page, which must be declared. -/
def pageSectionIssues (declared : List String) (fields : Fields) (place : Place) :
    List StructureIssue :=
  optionalTextIssues fields place "section" ++
    match text? fields "section" with
    | some name =>
      if declared.contains name then [] else [⟨place ++ [.key "section"], .undeclaredSection name⟩]
    | none => []

/-- A page. -/
def pageIssues (declared : List String) (fields : Fields) (place : Place) : List StructureIssue :=
  keyIssues ["path", "title", "section", "components", "next"] fields place ++
    pathIssues fields place ++
    optionalTextIssues fields place "title" ++
    pageSectionIssues declared fields place ++
    componentsIssues fields place ++
    eachIssues routeIssues fields place "next"

/-- A whole definition. -/
def formIssues (fields : Fields) : List StructureIssue :=
  let declared := (namesIn fields "sections" "name").map (·.1)
  keyIssues ["pages", "sections", "lists", "conditions"] fields [] ++
    eachIssues sectionIssues fields [] "sections" ++
    duplicateIssues "section name" fields "sections" "name" ++
    eachIssues listIssues fields [] "lists" ++
    duplicateIssues "list name" fields "lists" "name" ++
    eachIssues conditionIssues fields [] "conditions" ++
    missingIssues fields [] "pages" ++
    eachIssues (pageIssues declared) fields [] "pages" ++
    duplicateIssues "page path" fields "pages" "path"

/-- All issues of a definition. -/
def issues (definition : Json) : List StructureIssue :=
  objectIssues (fun fields _ => formIssues fields) definition []

end Structure

end Questionnaire
