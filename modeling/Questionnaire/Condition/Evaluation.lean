import Questionnaire.Condition.Registry
import Questionnaire.State.Basic

/-!
# Evaluating conditions

An expression is evaluated against a context: the whole state, and the part of it that belongs to a
section, which comes first. Evaluation leaves a trace of every value it met (`Trace`); an operand
that `and` or `or` did not need is traced as skipped. References to conditions are followed along
the registry's order of dependence, so evaluation always ends (`Registry.resolve`).
-/

namespace Questionnaire

/-- Why an expression has no value. -/
inductive EvaluationError where
  /-- The second operand of an ordering is not of the first one's type. -/
  | mixedTypes (operator : Operator) (found : Value)
  /-- The first operand of an ordering is neither a number nor a text. -/
  | unordered (operator : Operator) (found : Value)
  /-- The second operand of `in` is neither a list nor a text that could hold the first. -/
  | noContainer (found : Value)
  | missingField (path : FieldPath)
  | structuredField (path : FieldPath)
  | unknownCondition (name : String)

/-- The wording of a value of the wrong type. -/
def mismatchMessage (operation expected : String) (found : Value) : String :=
  "Type mismatch during operation '" ++ operation ++ "': expected " ++ expected ++
    ", but found value '" ++ found.display ++ "'"

/-- The wording of an error. -/
def EvaluationError.message : EvaluationError → String
  | .mixedTypes op found => mismatchMessage op.symbol "a value of the same type" found
  | .unordered op found => mismatchMessage op.symbol "Number or Text" found
  | .noContainer found => mismatchMessage Operator.member.symbol "List or Text" found
  | .missingField path => "Field '" ++ path.dotted ++ "' not found in the provided state"
  | .structuredField path =>
    "Field '" ++ path.dotted ++ "' holds a structured value that cannot be used in an expression"
  | .unknownCondition name => "Condition '" ++ name ++ "' is not registered"

/-! ## Context -/

/-- What an expression is evaluated against. -/
structure EvaluationContext where
  /-- The state of a section, looked at first. -/
  scope : Option State
  root : State

/-- The value at a path below a value. -/
def Json.below? : Json → List String → Option Json
  | value, [] => some value
  | .obj fields, name :: rest =>
    match Fields.get? fields name with
    | some value => Json.below? value rest
    | none => none
  | _, _ :: _ => none

/-- The value at a path in a state. -/
def State.at? (state : State) (path : FieldPath) : Option Json :=
  match Fields.get? state path.first with
  | some value => value.below? path.rest
  | none => none

/-- The value at a path, in the section's state or else in the whole. -/
def EvaluationContext.lookup? (context : EvaluationContext) (path : FieldPath) : Option Json :=
  (context.scope.bind (·.at? path)).or (State.at? context.root path)

/-! ## Traces -/

/-- How an expression was evaluated. -/
inductive Trace where
  | literal (value : Value)
  | field (path : FieldPath) (value : Value)
  | condition (name : String) (body : Trace) (outcome : Bool)
  | not (operand : Trace) (outcome : Bool)
  | binary (operator : Operator) (left right : Trace) (outcome : Bool)
  | skipped

namespace Trace

/-- The value that an evaluation came to. -/
def outcome : Trace → Value
  | .literal value | .field _ value => value
  | .condition _ _ outcome | .not _ outcome | .binary _ _ _ outcome => .bool outcome
  | .skipped => .null

/-- How tightly a trace binds in print. -/
def precedence : Trace → Nat
  | .binary op _ _ _ => op.precedence
  | .not _ _ => 8
  | .literal _ | .field _ _ | .condition _ _ _ | .skipped => 9

end Trace

/-! ## Operators -/

/-- Whether one run of characters occurs in another. -/
def occursIn (part : List Char) : List Char → Bool
  | [] => part.isEmpty
  | c :: rest => part.isPrefixOf (c :: rest) || occursIn part rest

/-- Whether an ordering operator holds of operands in the given order. -/
def Operator.holdsOf (op : Operator) (order : Ordering) : Bool :=
  match op with
  | .greater => order == .gt
  | .greaterOrEqual => order != .lt
  | .less => order == .lt
  | .lessOrEqual => order != .gt
  | _ => false

/-- The order of two numbers. -/
def Extended64.order (x y : Extended64) : Ordering :=
  if x.lt y then .lt else if y.lt x then .gt else .eq

/-- The order of two texts, by code points. -/
def textOrder (s t : String) : Ordering :=
  if s < t then .lt else if t < s then .gt else .eq

/-- Applies an ordering operator. -/
def Operator.order (op : Operator) (left right : Value) : Except EvaluationError Bool :=
  match left, right with
  | .number x, .number y => .ok (op.holdsOf (x.order y))
  | .text s, .text t => .ok (op.holdsOf (textOrder s t))
  | .number _, found | .text _, found => .error (.mixedTypes op found)
  | found, _ => .error (.unordered op found)

/-- Applies an operator to two values. -/
def Operator.apply (op : Operator) (left right : Value) : Except EvaluationError Bool :=
  match op with
  | .or => .ok (left.isTruthy || right.isTruthy)
  | .and => .ok (left.isTruthy && right.isTruthy)
  | .equal => .ok (left.same right)
  | .notEqual => .ok (!left.same right)
  | .member =>
    match left, right with
    | needle, .list items => .ok (items.any (·.same needle))
    | .text part, .text whole => .ok (occursIn part.toList whole.toList)
    | _, found => .error (.noContainer found)
  | op => op.order left right

/-- Whether the left operand alone decides the outcome. -/
def Operator.shortCut (op : Operator) (left : Bool) : Bool :=
  match op with
  | .and => !left
  | .or => left
  | _ => false

/-! ## Evaluation -/

/-- Evaluates an expression whose condition references `resolve` answers. -/
def Expression.trace (context : EvaluationContext)
    (resolve : String → Except EvaluationError Trace) : Expression → Except EvaluationError Trace
  | .literal value => .ok (.literal value)
  | .field path =>
    match context.lookup? path with
    | none => .error (.missingField path)
    | some json =>
      match Value.ofJson? json with
      | none => .error (.structuredField path)
      | some value => .ok (.field path value)
  | .condition name =>
    match resolve name with
    | .error e => .error e
    | .ok body => .ok (.condition name body body.outcome.isTruthy)
  | .not operand =>
    match operand.trace context resolve with
    | .error e => .error e
    | .ok t => .ok (.not t (!t.outcome.isTruthy))
  | .binary op left right =>
    match left.trace context resolve with
    | .error e => .error e
    | .ok l =>
      if op.shortCut l.outcome.isTruthy then .ok (.binary op l .skipped l.outcome.isTruthy)
      else
        match right.trace context resolve with
        | .error e => .error e
        | .ok r =>
          match op.apply l.outcome r.outcome with
          | .error e => .error e
          | .ok outcome => .ok (.binary op l r outcome)

namespace Registry

/-- Evaluates the condition of a name among conditions each of which refers only to later ones. -/
def resolve (context : EvaluationContext) :
    List Condition → String → Except EvaluationError Trace
  | [], name => .error (.unknownCondition name)
  | c :: rest, name =>
    if name = c.name then c.expression.trace context (resolve context rest)
    else resolve context rest name

/-- Evaluates an expression. -/
def trace (registry : Registry) (e : Expression) (context : EvaluationContext) :
    Except EvaluationError Trace :=
  e.trace context (resolve context registry.ordered)

/-- Whether an expression holds; one without a value does not. -/
def holds (registry : Registry) (e : Expression) (context : EvaluationContext) : Bool :=
  match registry.trace e context with
  | .ok t => t.outcome.isTruthy
  | .error _ => false

/-- Whether the condition of a name holds; an unknown one does not. -/
def evaluate (registry : Registry) (name : String) (context : EvaluationContext) : Bool :=
  match registry.get? name with
  | some c => registry.holds c.expression context
  | none => false

end Registry

end Questionnaire
