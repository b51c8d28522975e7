import Questionnaire.Component.Compile
import Questionnaire.Component.View
import Questionnaire.Options
import Questionnaire.Page.Route
import Questionnaire.Rule.Validation

/-!
# Pages

A page has components and routes. Its answers lie in its section's part of the state, or, outside
any section, at the top of the state. Every operation on a page is a function of its arguments.
-/

namespace Questionnaire

/-- A compiled page. -/
structure Page where
  path : String
  title : String
  inSection : Option SectionDefinition
  components : List Component
  /-- In the order in which they are tried. -/
  routes : List Route
  conditions : Registry
  options : Options

namespace Page

/-- The section of a page, which must be declared. -/
def findSection (sections : List SectionDefinition) (d : PageDefinition) :
    Except DefinitionError (Option SectionDefinition) :=
  match d.sectionName with
  | none => .ok none
  | some name =>
    match sections.find? (·.name == name) with
    | some found => .ok (some found)
    | none => .error (.unknownSection d.path name)

/-- Compiles a page. -/
def compile (d : PageDefinition) (sections : List SectionDefinition) (context : CompileContext)
    (conditions : Registry) (options : Options) : Except DefinitionError Page := do
  let found ← findSection sections d
  let components ← compileGroup context d.components
  let routes ← compileRoutes conditions d.path d.routes
  pure ⟨d.path, d.title.getD "", found, components, routes, conditions, options⟩

/-- The name of the page's section. -/
def sectionName? (page : Page) : Option String :=
  page.inSection.map SectionDefinition.name

/-- The components that take answers. -/
def formComponents (page : Page) : List Component :=
  Questionnaire.formComponents page.components

/-- The rule for submitted data. -/
def formSchema (page : Page) : Rule := Questionnaire.formSchema page.components

/-- The rule for the page's part of the state. -/
def stateSchema (page : Page) : Rule := Questionnaire.stateSchema page.components

/-! ## State -/

/-- The page's part of the state. -/
def pageState? (page : Page) (state : State) : Option State :=
  match page.sectionName? with
  | some name => (state.get? name).bind Json.obj?
  | none => some state

/-- An update of the page's part, as an update of the whole state. -/
def asUpdate (page : Page) (pageState : State) : State :=
  match page.sectionName? with
  | some name => [(name, .obj pageState)]
  | none => pageState

/-- The data that submits the stored answers. -/
def toForm (page : Page) (state : State) : FormData :=
  match page.pageState? state with
  | some pageState => Questionnaire.toForm page.components pageState
  | none => []

/-- The page's part of the state made of valid submitted data. -/
def toState (page : Page) (payload : FormData) : State :=
  Questionnaire.toState page.components payload

/-! ## Validation -/

/-- Checks an object by a rule; failures come under the title of error summaries. -/
def validate (page : Page) (rule : Rule) (fields : Fields) : Except ErrorSummary Fields :=
  match rule.validate {} (.obj fields) with
  | .ok (.obj converted) => .ok converted
  | .ok _ => .ok []
  | .error failures => .error ⟨page.options.errorSummaryTitle, failures⟩

/-- Checks submitted data. -/
def validateForm (page : Page) (payload : FormData) : Except ErrorSummary FormData :=
  page.validate page.formSchema payload

/-- Checks the page's part of the state. -/
def validateState (page : Page) (pageState : State) : Except ErrorSummary State :=
  page.validate page.stateSchema pageState

/-- The answers of a submission, or what is wrong with it. -/
def answers (page : Page) (payload : FormData) : Except ErrorSummary State :=
  match page.validateForm payload with
  | .error summary => .error summary
  | .ok data => page.validateState (page.toState data)

/-! ## Navigation -/

/-- What the page's conditions see: the section's part of the state first. -/
def evaluationContext (page : Page) (state : State) : EvaluationContext :=
  ⟨page.sectionName?.bind fun name => (state.get? name).bind Json.obj?, state⟩

/-- The route taken from the page, and why. -/
def nextDecision (page : Page) (state : State) : RouteDecision :=
  decideRoute page.conditions (page.evaluationContext state) page.options.defaultNextPath
    page.routes

/-- The path that follows the page. -/
def next (page : Page) (state : State) : String :=
  (page.nextDecision state).path

end Page

end Questionnaire
