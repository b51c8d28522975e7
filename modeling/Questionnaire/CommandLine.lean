import Questionnaire.Model.Summary

/-!
# The command line

Four commands that compile a form definition from a file and try it out: `check` lists what is in
it, `next` says which page follows for a state, `validate` checks a payload and prints the update it
would store, and `summary` prints every answer. A run is a function of the files' contents; what it
prints and its exit code are its outcome.
-/

namespace Questionnaire.CommandLine

/-- A command with its arguments. -/
inductive Command where
  | check (form : String)
  | next (form page state : String)
  | validate (form page payload : String)
  | summary (form state : String)
deriving DecidableEq

namespace Command

/-- The command that arguments spell. -/
def ofArgs? : List String → Option Command
  | ["check", form] => some (.check form)
  | ["next", form, page, state] => some (.next form page state)
  | ["validate", form, page, payload] => some (.validate form page payload)
  | ["summary", form, state] => some (.summary form state)
  | _ => none

/-- The files a command reads. -/
def files : Command → List String
  | .check form => [form]
  | .next form _ state => [form, state]
  | .validate form _ payload => [form, payload]
  | .summary form state => [form, state]

end Command

/-- What a run prints, line by line, and its exit code. -/
structure Outcome where
  code : Nat
  lines : List String
  /-- What stopped the run, if something did. -/
  error : Option String
deriving DecidableEq

/-- The run printed what it was asked for. -/
def Outcome.printed (code : Nat) (lines : List String) : Outcome := ⟨code, lines, none⟩

/-- The run was stopped. -/
def Outcome.stopped (message : String) : Outcome := ⟨1, [], some message⟩

/-- All that is printed to standard output. -/
def Outcome.stdout (outcome : Outcome) : String :=
  String.join (outcome.lines.map (· ++ "\n"))

/-- All that is printed to standard error. -/
def Outcome.stderr (outcome : Outcome) : String :=
  match outcome.error with
  | some message => "\nError: " ++ message ++ "\n"
  | none => ""

/-- The content of a file, or why it cannot be read. -/
abbrev Files := String → Except String String

/-! ## Layout -/

/-- A text in a column of a width. -/
def column (width : Nat) (text : String) : String :=
  text ++ String.ofList (List.replicate (width - text.length) ' ')

/-- A heading, with an empty line before it. -/
def heading (text : String) : List String :=
  ["", "--- " ++ text ++ " ---"]

/-! ## Input -/

/-- The model of a file. -/
def loadModel (files : Files) (path : String) : Except Outcome Model :=
  match files path with
  | .error reason => .error (.stopped ("Failed to read form file '" ++ path ++ "': " ++ reason))
  | .ok text =>
    match Model.ofText text with
    | .error e => .error (.stopped ("Form compilation failed: " ++ e.message))
    | .ok model => .ok model

/-- The object of a file. -/
def loadObject (files : Files) (path what : String) : Except Outcome Fields :=
  match files path with
  | .error reason =>
    .error (.stopped ("Failed to read " ++ what ++ " file '" ++ path ++ "': " ++ reason))
  | .ok text =>
    match Json.parse? text with
    | none => .error (.stopped ("Failed to parse " ++ what ++ " JSON: not a JSON value"))
    | some (.obj fields) => .ok fields
    | some _ => .error (.stopped ("The " ++ what ++ " file must hold a JSON object"))

/-- The page at a path. -/
def findPage (model : Model) (path : String) : Except Outcome Page :=
  match model.page? path with
  | some page => .ok page
  | none => .error (.stopped (RequestError.unknownPage path).message)

/-! ## Reports -/

/-- A page in the report of `check`. -/
def pageLine (page : Page) : String :=
  column 30 page.path ++ " section: " ++ column 15 (page.sectionName?.getD "-") ++ " fields: " ++
    column 3 (toString page.formComponents.length) ++ " routes: " ++ toString page.routes.length

/-- A section in the report of `check`. -/
def sectionLine (s : SectionDefinition) : String :=
  column 20 s.name ++ " " ++ s.title

/-- A condition in the report of `check`. -/
def conditionLine (condition : Condition) : String :=
  column 20 condition.name ++ " " ++ column 40 condition.source ++ " reads: " ++
    String.intercalate ", " condition.expression.fieldNames

/-- The report of `check`. -/
def checkReport (form : String) (model : Model) : Outcome :=
  .printed 0 <|
    ["Compiled '" ++ form ++ "'"] ++
      heading "Pages" ++ model.pages.map pageLine ++
      heading "Sections" ++ model.definition.sections.map sectionLine ++
      heading "Conditions" ++ model.conditions.conditions.map conditionLine

/-- The report of `next`. -/
def nextReport (page : Page) (state : State) : Outcome :=
  let decision := page.nextDecision state
  .printed 0 [decision.path, "  -> Reason: " ++ decision.reason]

/-- A failure in the report of `validate`. -/
def failureLine (failure : Failure) : String :=
  "  " ++ column 30 failure.fieldName ++ " " ++ failure.message

/-- The page's part of the state that a payload makes, or what is wrong with it: the payload is
checked, brought into the form of the state, and checked once more. -/
def checkedState (page : Page) (payload : FormData) : Except ErrorSummary State := do
  let data ← page.validateForm payload
  page.validateState (page.toState data)

/-- The report of `validate`. -/
def validateReport (page : Page) (payload : FormData) : Outcome :=
  match checkedState page payload with
  | .ok pageState => .printed 0 [(Json.obj (page.asUpdate pageState)).pretty]
  | .error summary => .printed 1 (summary.title :: summary.failures.map failureLine)

/-- A row in the report of `summary`. -/
def rowLine (row : SummaryRow) : String :=
  (if row.inError then "!" else " ") ++ " " ++ column 30 row.label ++ " " ++ row.value

/-- A group in the report of `summary`. -/
def groupLines (group : SummaryGroup) : List String :=
  (match group.inSection with
    | some s => heading s.title
    | none => []) ++ group.rows.map rowLine

/-- The report of `summary`. -/
def summaryReport (model : Model) (state : State) : Outcome :=
  let summary := Summary.of model state
  let rows := summary.groups.flatMap groupLines
  if summary.ready then .printed 0 (rows ++ ["", "Ready to submit."])
  else
    .printed 2 <|
      rows ++ ["", toString summary.failures.length ++ " problem(s):"] ++
        summary.failures.map fun failure => "  " ++ failure.message

/-! ## Running -/

/-- The outcome of one of two ways. -/
def either : Except Outcome Outcome → Outcome
  | .ok outcome | .error outcome => outcome

/-- Runs a command. -/
def run (files : Files) : Command → Outcome
  | .check form => either do
    let model ← loadModel files form
    pure (checkReport form model)
  | .next form path state => either do
    let model ← loadModel files form
    let state ← loadObject files state "state"
    let page ← findPage model path
    pure (nextReport page state)
  | .validate form path payload => either do
    let model ← loadModel files form
    let payload ← loadObject files payload "payload"
    let page ← findPage model path
    pure (validateReport page payload)
  | .summary form state => either do
    let model ← loadModel files form
    let state ← loadObject files state "state"
    pure (summaryReport model state)

end Questionnaire.CommandLine
