import Questionnaire.Json.Basic

/-!
# Options

Settings shared by all pages of a questionnaire.
-/

namespace Questionnaire

/-- Settings of a questionnaire. -/
structure Options where
  /-- Where navigation goes when no route applies. -/
  defaultNextPath : String := "/summary"
  /-- The page that lists every answer. -/
  summaryPath : String := "/summary"
  errorSummaryTitle : String := "Fix the following errors"
  /-- Whether the whole state may hold answers that no page asks for. -/
  allowUnknownStateKeys : Bool := false
deriving DecidableEq

/-- Options as JSON. -/
def Options.toJson (options : Options) : Json :=
  .obj (Fields.ofList
    [("defaultNextPath", .str options.defaultNextPath),
      ("summaryPath", .str options.summaryPath),
      ("errorSummaryTitle", .str options.errorSummaryTitle),
      ("allowUnknownStateKeys", .bool options.allowUnknownStateKeys)])

end Questionnaire
