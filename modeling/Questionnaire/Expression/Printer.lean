import Questionnaire.Expression.Basic

/-!
# Printing expressions

An expression in the notation it is written in. An operand that binds less tightly than its place
asks for is put in parentheses; the right operand's place asks for one more than the operator, so
that `a and (b and c)` keeps its parentheses.
-/

namespace Questionnaire

/-- Parentheses where a part binds less tightly than its place asks for. -/
def parenthesise (own place : Nat) (text : String) : String :=
  if own < place then "(" ++ text ++ ")" else text

/-- The expression at a place that asks for a precedence. -/
def Expression.displayAt (place : Nat) (e : Expression) : String :=
  parenthesise e.precedence place <|
    match e with
    | .literal value => value.display
    | .field path => path.dotted
    | .condition name => "@" ++ name
    | .not operand => "not " ++ operand.displayAt 8
    | .binary op left right =>
      left.displayAt op.precedence ++ " " ++ op.symbol ++ " " ++ right.displayAt (op.precedence + 1)

/-- The expression in print. -/
def Expression.display (e : Expression) : String :=
  e.displayAt 0

end Questionnaire
