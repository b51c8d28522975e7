import Questionnaire.Definition.Structure
import Questionnaire.Expression.Parser

/-!
# Errors of a definition

Why a definition cannot be compiled into a model. Compiling stops at the first error; only the
issues of the structure come all together.
-/

namespace Questionnaire

/-- Why a definition cannot be compiled. -/
inductive DefinitionError where
  | invalidStructure (issues : List StructureIssue)
  /-- The text is no JSON. -/
  | notJson
  /-- The JSON does not spell a definition. -/
  | unreadable
  | unknownComponentType (location component type : String)
  | missingName (location type : String)
  | unknownList (location component list : String)
  /-- The items of a list reveal, perhaps through other lists, a field on the list itself. The program
  reports no such error: it goes on compiling the items until its stack overflows. Here compiling is a
  total function, and ends with this. -/
  | endlessReveal (location list : String)
  | duplicateName (location name : String)
  | unknownSection (page name : String)
  | undeclaredCondition (name referrer : String)
  | circularCondition (name : String)
  | malformedExpression (expression : String) (problem : Malformed)
deriving DecidableEq

/-- The wording of an error. -/
def DefinitionError.message : DefinitionError → String
  | .invalidStructure issues =>
    "Form definition is invalid (" ++ toString issues.length ++ " issue(s)): " ++
      String.intercalate "; " (issues.map StructureIssue.text)
  | .notJson => "Failed to parse form definition JSON: not a JSON value"
  | .unreadable => "Failed to parse form definition JSON: not a form definition"
  | .unknownComponentType location component type =>
    "Component '" ++ component ++ "' on '" ++ location ++ "' has an unregistered type: '" ++
      type ++ "'"
  | .missingName location type =>
    "A '" ++ type ++ "' component on '" ++ location ++ "' requires a name"
  | .unknownList location component list =>
    "Component '" ++ component ++ "' on '" ++ location ++ "' references an unknown list: '" ++
      list ++ "'"
  | .endlessReveal location list =>
    "List '" ++ list ++ "' on '" ++ location ++ "' reveals itself without end"
  | .duplicateName location name =>
    "Field name '" ++ name ++ "' is used more than once on '" ++ location ++ "'"
  | .unknownSection page name =>
    "Page '" ++ page ++ "' references an unknown section: '" ++ name ++ "'"
  | .undeclaredCondition name referrer =>
    "'" ++ referrer ++ "' references '" ++ name ++
      "', but that condition not specified in conditions list"
  | .circularCondition name => "Condition '" ++ name ++ "' refers back to itself"
  | .malformedExpression expression problem =>
    "Failed to parse expression '" ++ expression ++ "' at position " ++ toString problem.position ++
      ": " ++ problem.fault.message

/-- The error of an expression's text; `referrer` is the condition or page that holds it. -/
def DefinitionError.ofParseError (source referrer : String) : ParseError → DefinitionError
  | .malformed problem => .malformedExpression source problem
  | .undeclared name => .undeclaredCondition name referrer

end Questionnaire
