import Questionnaire.Model.Basic
import Questionnaire.Component.Display
import Questionnaire.Definition.Writing

/-!
# Summaries

Every answer on one page, by section, and what is wrong with the whole state. A row is in error when
a failure lies at its answer, inside it, or around it.
-/

namespace Questionnaire

/-- One answer. -/
structure SummaryRow where
  name : String
  label : String
  value : String
  /-- The page that asks for the answer, with the way back. -/
  url : String
  inError : Bool
deriving DecidableEq

/-- The answers of a section, or of the pages outside any section. -/
structure SummaryGroup where
  inSection : Option SectionDefinition
  rows : List SummaryRow
deriving DecidableEq

/-- A summary. It is ready to be submitted when nothing fails. -/
structure Summary where
  groups : List SummaryGroup
  failures : List Failure
  /-- The converted state when it is valid, or else the state as it was. -/
  value : Json

/-- Whether a failure concerns a row: one's place leads to, or along, the other's. -/
def covers (failing row : List String) : Bool :=
  !failing.isEmpty && (failing.isPrefixOf row || row.isPrefixOf failing)

namespace Summary

/-- The row of a component, at its place in the state. -/
def row (failures : List Failure) (place : List String) (url : String) (pageState : State)
    (c : Component) : SummaryRow :=
  { name := c.name
    label := c.title
    value := c.display pageState
    url
    inError := failures.any fun failure => covers failure.path (place ++ [c.name]) }

/-- The rows of a page. -/
def pageRows (failures : List Failure) (summaryPath : String) (state : State) (page : Page) :
    List SummaryRow :=
  page.formComponents.map <|
    row failures page.sectionName?.toList (page.path ++ "?returnUrl=" ++ summaryPath)
      ((page.pageState? state).getD [])

/-- The answers of a section's pages. -/
def group (failures : List Failure) (model : Model) (state : State)
    (s : Option SectionDefinition) : SummaryGroup :=
  ⟨s, (pagesIn model.pages (s.map SectionDefinition.name)).flatMap
    (pageRows failures model.options.summaryPath state)⟩

/-- The sections of a summary: first the pages outside any. -/
def sectionsOf (model : Model) : List (Option SectionDefinition) :=
  none :: model.definition.sections.map some

/-- The groups that have rows. -/
def groupsOf (failures : List Failure) (model : Model) (state : State) : List SummaryGroup :=
  ((sectionsOf model).map (group failures model state)).filter (!·.rows.isEmpty)

/-- The summary of a state. -/
def of (model : Model) (state : State) : Summary :=
  match model.validateState state with
  | .ok value => ⟨groupsOf [] model state, [], value⟩
  | .error failures => ⟨groupsOf failures model state, failures, .obj state⟩

/-- Whether the state can be submitted. -/
def ready (summary : Summary) : Bool :=
  summary.failures.isEmpty

/-- All rows. -/
def rows (summary : Summary) : List SummaryRow :=
  summary.groups.flatMap SummaryGroup.rows

end Summary

/-- A row as JSON. -/
def SummaryRow.toJson (row : SummaryRow) : Json :=
  .obj (Fields.ofList
    [("name", .str row.name),
      ("label", .str row.label),
      ("value", .str row.value),
      ("url", .str row.url),
      ("inError", .bool row.inError)])

/-- A group as JSON; outside any section its name and title are null. -/
def SummaryGroup.toJson (group : SummaryGroup) : Json :=
  .obj (Fields.ofList
    [("name", nullableText (group.inSection.map SectionDefinition.name)),
      ("title", nullableText (group.inSection.map SectionDefinition.title)),
      ("items", .arr (group.rows.map SummaryRow.toJson))])

/-- A failure of a summary as JSON. -/
def Failure.summaryJson (failure : Failure) : Json :=
  .obj (Fields.ofList
    [("path", .str failure.dottedPath),
      ("name", .str failure.fieldName),
      ("message", .str failure.message)])

/-- A summary as JSON. -/
def Summary.toJson (summary : Summary) : Json :=
  .obj (Fields.ofList
    [("details", .arr (summary.groups.map SummaryGroup.toJson)),
      ("errors", .arr (summary.failures.map Failure.summaryJson)),
      ("hasErrors", .bool (!summary.ready)),
      ("ready", .bool summary.ready),
      ("value", summary.value)])

end Questionnaire
