import Questionnaire.Definition.Basic
import Questionnaire.Options

/-!
# Reading definitions

Typed readings of JSON values as the parts of a definition. A record is an object with members by
name, or an array with the same values in the order of the fields. A member that may be missing may
also be null, unless it has a default of its own; then it must be of its type when it is there.
-/

namespace Questionnaire

/-- The members of a record, by field. -/
abbrev Slots := String → Option Json

/-- Whether an object may have members that are no fields of the record. -/
inductive ExtraMembers where
  | refused
  | ignored
deriving DecidableEq

/-- The members of a record with the given fields. -/
def slots? (extra : ExtraMembers) (fields : List String) : Json → Option Slots
  | .obj members =>
    if extra = .refused ∧ !(members.all fun member => fields.contains member.1) then none
    else some (Fields.get? members)
  | .arr items =>
    if fields.length < items.length then none
    else some fun field => ((fields.zip items).find? fun entry => entry.1 == field).map (·.2)
  | _ => none

namespace Slots

variable {α : Type}

/-- A member that must be there. -/
def required (slots : Slots) (field : String) (read : Json → Option α) : Option α :=
  (slots field).bind read

/-- A member that may be missing or null. -/
def optional (slots : Slots) (field : String) (read : Json → Option α) : Option (Option α) :=
  match slots field with
  | none => some none
  | some .null => some none
  | some value => (read value).map some

/-- A member that may be missing. -/
def withDefault (slots : Slots) (field : String) (fallback : α) (read : Json → Option α) : Option α :=
  match slots field with
  | none => some fallback
  | some value => read value

end Slots

/-! ## Single values -/

/-- A boolean. -/
def readBool? : Json → Option Bool
  | .bool b => some b
  | _ => none

/-- A number, as floating point. -/
def readNumber? : Json → Option Binary64
  | .num n => some n.toBinary64
  | _ => none

/-- An integer of 32 bits without a sign. -/
def readCount? : Json → Option Nat
  | .num n => n.nat?.filter (· < word32Limit)
  | _ => none

/-- An array of values of one kind. -/
def readList? {α : Type} (read : Json → Option α) (value : Json) : Option (List α) :=
  value.arr?.bind (·.mapM read)

/-- The type of a list: its name, or an object with null under the name. -/
def ListType.ofJson? : Json → Option ListType
  | .str name => ListType.ofName? name
  | .obj [(name, .null)] => ListType.ofName? name
  | _ => none

/-! ## Parts of a definition -/

/-- The options of a component. -/
def ComponentOptions.ofJson? (value : Json) : Option ComponentOptions := do
  let slots ← slots? .ignored ["required", "classes", "list", "bold", "rows"] value
  let required ← slots.optional "required" readBool?
  let classes ← slots.optional "classes" Json.str?
  let list ← slots.optional "list" Json.str?
  let bold ← slots.optional "bold" readBool?
  let rows ← slots.optional "rows" readCount?
  pure { required, classes, list, bold, rows }

/-- The constraints on a component's answer. -/
def AnswerConstraints.ofJson? (value : Json) : Option AnswerConstraints := do
  let slots ← slots? .ignored ["min", "max", "trim", "allow"] value
  let min ← slots.optional "min" readNumber?
  let max ← slots.optional "max" readNumber?
  let trim ← slots.optional "trim" readBool?
  let allow ← slots.optional "allow" some
  pure { min, max, trim, allow }

/-- A component. -/
def ComponentDefinition.ofJson? (value : Json) : Option ComponentDefinition := do
  let slots ← slots? .refused
    ["type", "name", "title", "hint", "content", "icon", "options", "schema"] value
  let type ← slots.required "type" Json.str?
  let name ← slots.optional "name" Json.str?
  let title ← slots.optional "title" Json.str?
  let hint ← slots.optional "hint" Json.str?
  let content ← slots.optional "content" Json.str?
  let icon ← slots.optional "icon" Json.str?
  let options ← slots.withDefault "options" {} ComponentOptions.ofJson?
  let constraints ← slots.withDefault "schema" {} AnswerConstraints.ofJson?
  pure { type, name, title, hint, content, icon, options, constraints }

/-- What an item reveals. -/
def readRevealed? (value : Json) : Option (List ComponentDefinition) := do
  let slots ← slots? .refused ["components"] value
  slots.withDefault "components" [] (readList? ComponentDefinition.ofJson?)

/-- An item of a list. -/
def ListItem.ofJson? (item : Json) : Option ListItem := do
  let slots ← slots? .refused ["text", "value", "description", "conditional"] item
  let text ← slots.required "text" Json.str?
  let value ← slots.required "value" some
  let description ← slots.optional "description" Json.str?
  let revealed ← slots.optional "conditional" readRevealed?
  pure { text, value, description, revealed }

/-- A list. -/
def ListDefinition.ofJson? (value : Json) : Option ListDefinition := do
  let slots ← slots? .refused ["name", "title", "type", "items"] value
  let name ← slots.required "name" Json.str?
  let title ← slots.required "title" Json.str?
  let type ← slots.required "type" ListType.ofJson?
  let items ← slots.required "items" (readList? ListItem.ofJson?)
  pure { name, title, type, items }

/-- A section. -/
def SectionDefinition.ofJson? (value : Json) : Option SectionDefinition := do
  let slots ← slots? .refused ["name", "title"] value
  let name ← slots.required "name" Json.str?
  let title ← slots.required "title" Json.str?
  pure { name, title }

/-- A condition. -/
def ConditionDefinition.ofJson? (value : Json) : Option ConditionDefinition := do
  let slots ← slots? .refused ["name", "value"] value
  let name ← slots.required "name" Json.str?
  let value ← slots.required "value" Json.str?
  pure { name, value }

/-- A route. -/
def RouteDefinition.ofJson? (value : Json) : Option RouteDefinition := do
  let slots ← slots? .refused ["path", "if"] value
  let path ← slots.required "path" Json.str?
  let guard ← slots.optional "if" Json.str?
  pure { path, guard }

/-- A page. -/
def PageDefinition.ofJson? (value : Json) : Option PageDefinition := do
  let slots ← slots? .refused ["path", "title", "section", "components", "next"] value
  let path ← slots.required "path" Json.str?
  let title ← slots.optional "title" Json.str?
  let sectionName ← slots.optional "section" Json.str?
  let components ← slots.withDefault "components" [] (readList? ComponentDefinition.ofJson?)
  let routes ← slots.withDefault "next" [] (readList? RouteDefinition.ofJson?)
  pure { path, title, sectionName, components, routes }

/-- A whole definition. -/
def FormDefinition.ofJson? (value : Json) : Option FormDefinition := do
  let slots ← slots? .refused ["pages", "sections", "lists", "conditions"] value
  let pages ← slots.required "pages" (readList? PageDefinition.ofJson?)
  let sections ← slots.withDefault "sections" [] (readList? SectionDefinition.ofJson?)
  let lists ← slots.withDefault "lists" [] (readList? ListDefinition.ofJson?)
  let conditions ← slots.withDefault "conditions" [] (readList? ConditionDefinition.ofJson?)
  pure { pages, sections, lists, conditions }

/-- Options, each with its default. -/
def Options.ofJson? (value : Json) : Option Options := do
  let slots ← slots? .ignored
    ["defaultNextPath", "summaryPath", "errorSummaryTitle", "allowUnknownStateKeys"] value
  let fallback : Options := {}
  let defaultNextPath ← slots.withDefault "defaultNextPath" fallback.defaultNextPath Json.str?
  let summaryPath ← slots.withDefault "summaryPath" fallback.summaryPath Json.str?
  let errorSummaryTitle ← slots.withDefault "errorSummaryTitle" fallback.errorSummaryTitle Json.str?
  let allowUnknownStateKeys ←
    slots.withDefault "allowUnknownStateKeys" fallback.allowUnknownStateKeys readBool?
  pure { defaultNextPath, summaryPath, errorSummaryTitle, allowUnknownStateKeys }

end Questionnaire
