import Questionnaire.Condition.Evaluation
import Questionnaire.Expression.Printer

/-!
# Explanations

A trace in print says why an expression holds or not: a field shows the value that was read, a
reference shows the outcome and the body of its condition, and operands that were skipped are left
out. Parentheses stand where they stand in the printed expression.
-/

namespace Questionnaire

/-- The trace at a place that asks for a precedence. -/
def Trace.displayAt (place : Nat) (t : Trace) : String :=
  parenthesise t.precedence place <|
    match t with
    | .literal value => value.display
    | .field path value => path.display ++ " (was " ++ value.display ++ ")"
    | .condition name body outcome =>
      "@" ++ name ++ " (was " ++ (Value.bool outcome).display ++ ": " ++ body.displayAt 0 ++ ")"
    | .not operand _ => "not " ++ operand.displayAt 8
    | .binary op left .skipped _ => left.displayAt op.precedence
    | .binary op left right _ =>
      left.displayAt op.precedence ++ " " ++ op.symbol ++ " " ++ right.displayAt (op.precedence + 1)
    | .skipped => ""

/-- The trace in print. -/
def Trace.display (t : Trace) : String :=
  t.displayAt 0

/-- Whether an expression holds, and why. -/
structure Explanation where
  holds : Bool
  reason : String
deriving DecidableEq

/-- Evaluates an expression and explains the outcome; an error is a reason not to hold. -/
def Registry.explain (registry : Registry) (e : Expression) (context : EvaluationContext) :
    Explanation :=
  match registry.trace e context with
  | .ok t => ⟨t.outcome.isTruthy, t.display⟩
  | .error error => ⟨false, error.message⟩

end Questionnaire
