import Questionnaire.Number.Printing
import Questionnaire.Json.Basic
import Questionnaire.Text.Sorted

/-!
# Condition expressions

Boolean expressions over the state: comparisons of literals and state fields, combined by `and`,
`or` and `not`, with references to named conditions. A field is named by a path into the state.
-/

namespace Questionnaire

/-! ## Values -/

/-- The values that an expression computes with. -/
inductive Value where
  | number (x : Extended64)
  | bool (b : Bool)
  | text (s : String)
  | list (items : List Value)
  | null

mutual

/-- The value of an answer; an object, at any depth, has none. -/
def Value.ofJson? : Json → Option Value
  | .null => some .null
  | .bool b => some (.bool b)
  | .num n => some (.number (.finite n.toBinary64))
  | .str s => some (.text s)
  | .arr items => (valuesOfJson? items).map .list
  | .obj _ => none

/-- The values of several answers, if each has one. -/
def valuesOfJson? : List Json → Option (List Value)
  | [] => some []
  | item :: rest =>
    match Value.ofJson? item, valuesOfJson? rest with
    | some value, some values => some (value :: values)
    | _, _ => none

end

namespace Value

/-- Null, false, zero, the empty text and the empty list count as false; all else is true. -/
def isTruthy : Value → Bool
  | .number x => !x.isZero
  | .bool b => b
  | .text s => s != ""
  | .list items => !items.isEmpty
  | .null => false

end Value

mutual

/-- Equality by value: it takes the two zeros for one. -/
def Value.same : Value → Value → Bool
  | .number x, .number y => x.same y
  | .bool a, .bool b => a == b
  | .text s, .text t => s == t
  | .list xs, .list ys => sameValues xs ys
  | .null, .null => true
  | _, _ => false

/-- Equality by value, item by item. -/
def sameValues : List Value → List Value → Bool
  | [], [] => true
  | x :: xs, y :: ys => x.same y && sameValues xs ys
  | _, _ => false

end

mutual

/-- The value as messages and printed expressions write it. -/
def Value.display : Value → String
  | .number x => x.rounded
  | .bool b => if b then "true" else "false"
  | .text s => "'" ++ s ++ "'"
  | .list items => "[" ++ String.intercalate ", " (displayValues items) ++ "]"
  | .null => "null"

/-- The display of every value. -/
def displayValues : List Value → List String
  | [] => []
  | value :: rest => value.display :: displayValues rest

end

/-! ## Fields -/

/-- A path into the state: the name of a field, and the names of members inside it. -/
structure FieldPath where
  first : String
  rest : List String
deriving DecidableEq

namespace FieldPath

/-- All names of a path. -/
def segments (path : FieldPath) : List String :=
  path.first :: path.rest

/-- The path as expressions write it. -/
def dotted (path : FieldPath) : String :=
  String.intercalate "." path.segments

/-- The path as reports write it. -/
def display (path : FieldPath) : String :=
  "$" ++ path.dotted

end FieldPath

/-! ## Expressions -/

/-- The operators between two operands. -/
inductive Operator where
  | or
  | and
  | equal
  | notEqual
  | greater
  | greaterOrEqual
  | less
  | lessOrEqual
  | member
deriving DecidableEq

namespace Operator

/-- The operator as it is written. -/
def symbol : Operator → String
  | .or => "or"
  | .and => "and"
  | .equal => "=="
  | .notEqual => "!="
  | .greater => ">"
  | .greaterOrEqual => ">="
  | .less => "<"
  | .lessOrEqual => "<="
  | .member => "in"

/-- How tightly an operator binds in print. -/
def precedence : Operator → Nat
  | .or => 1
  | .and => 2
  | .equal | .notEqual => 4
  | .greater | .greaterOrEqual | .less | .lessOrEqual | .member => 5

/-- Whether an operator compares its operands. -/
def isComparison : Operator → Bool
  | .or | .and => false
  | _ => true

end Operator

/-- A condition expression. -/
inductive Expression where
  | literal (value : Value)
  | field (path : FieldPath)
  | condition (name : String)
  | not (operand : Expression)
  | binary (operator : Operator) (left right : Expression)

namespace Expression

/-- The conditions an expression refers to, from left to right. -/
def conditions : Expression → List String
  | .literal _ | .field _ => []
  | .condition name => [name]
  | .not e => e.conditions
  | .binary _ l r => l.conditions ++ r.conditions

/-- The fields an expression reads itself, from left to right. -/
def fields : Expression → List FieldPath
  | .literal _ | .condition _ => []
  | .field path => [path]
  | .not e => e.fields
  | .binary _ l r => l.fields ++ r.fields

/-- The fields an expression reads, as reports list them. -/
def fieldNames (e : Expression) : List String :=
  Text.sortedUnique (e.fields.map FieldPath.display)

/-- The conditions an expression refers to, as reports list them. -/
def conditionNames (e : Expression) : List String :=
  Text.sortedUnique e.conditions

/-- How tightly an expression binds in print. -/
def precedence : Expression → Nat
  | .binary op _ _ => op.precedence
  | .not _ => 8
  | .literal _ | .field _ | .condition _ => 9

end Expression

end Questionnaire
