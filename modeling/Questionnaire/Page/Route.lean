import Questionnaire.Condition.Explanation
import Questionnaire.Definition.Basic

/-!
# Routes

Where a page leads. Routes with a guard are tried before those without, each group in the order in
which it is written; the first that is open is taken, and the default path when none is.
-/

namespace Questionnaire

/-- What keeps a route closed. -/
inductive Guard where
  /-- A declared condition. -/
  | named (name : String)
  /-- An expression written at the route. -/
  | inline (source : String) (expression : Expression)

/-- A route to another page. -/
structure Route where
  path : String
  guard : Option Guard

/-- The route taken, and why. -/
structure RouteDecision where
  path : String
  /-- The place of the route among the page's routes, unless the default path was taken. -/
  rule : Option Nat
  reason : String
deriving DecidableEq

/-- Compiles a guard: the name of a condition, or else an expression. -/
def compileGuard (conditions : Registry) (page text : String) : Except DefinitionError Guard :=
  if conditions.has text then .ok (.named text)
  else
    match conditions.parse text page with
    | .error e => .error e
    | .ok expression => .ok (.inline text expression)

/-- Compiles a route of a page. -/
def compileRoute (conditions : Registry) (page : String) (d : RouteDefinition) :
    Except DefinitionError Route :=
  match d.guard with
  | none => .ok ⟨d.path, none⟩
  | some text =>
    match compileGuard conditions page text with
    | .error e => .error e
    | .ok guard => .ok ⟨d.path, some guard⟩

/-- Routes in the order in which they are tried. -/
def guardedFirst (routes : List RouteDefinition) : List RouteDefinition :=
  routes.filter (·.guard.isSome) ++ routes.filter (·.guard.isNone)

/-- Compiles the routes of a page. -/
def compileRoutes (conditions : Registry) (page : String) (routes : List RouteDefinition) :
    Except DefinitionError (List Route) :=
  (guardedFirst routes).mapM (compileRoute conditions page)

/-- Whether a guard lets through, and why. A condition that is not declared never does. -/
def Guard.explain (conditions : Registry) (context : EvaluationContext) : Guard → Explanation
  | .named name =>
    if conditions.has name then conditions.explain (.condition name) context
    else ⟨false, (EvaluationError.unknownCondition name).message⟩
  | .inline _ expression => conditions.explain expression context

/-- Takes the first open route, counting from `i`. -/
def decideFrom (conditions : Registry) (context : EvaluationContext) (default : String) (i : Nat) :
    List Route → RouteDecision
  | [] => ⟨default, none, "no route matched; using the default"⟩
  | route :: rest =>
    match route.guard with
    | none => ⟨route.path, some i, "unconditional route"⟩
    | some guard =>
      let explanation := guard.explain conditions context
      if explanation.holds then ⟨route.path, some i, explanation.reason⟩
      else decideFrom conditions context default (i + 1) rest

/-- Takes the first open route. -/
def decideRoute (conditions : Registry) (context : EvaluationContext) (default : String)
    (routes : List Route) : RouteDecision :=
  decideFrom conditions context default 0 routes

end Questionnaire
