import Questionnaire.Definition.Error

/-!
# Named conditions

Conditions are compiled together: each may refer to any other by name, in any order, as long as no
reference leads back to where it came from. The registry keeps them twice, in the order of
declaration and in an order of dependence in which each refers only to later ones, so that they can
be evaluated without going in circles.

The second order is the one in which a depth-first search finishes: a condition is finished once all
that it refers to is. The search keeps the names that it is in the middle of visiting; when it meets
one of them again, the references lead in a circle through that name.
-/

namespace Questionnaire

/-- A compiled condition. -/
structure Condition where
  name : String
  /-- The text of the expression as it was written. -/
  source : String
  expression : Expression

/-- The conditions a condition refers to, from left to right. -/
def Condition.references (condition : Condition) : List String :=
  condition.expression.conditions

/-- The condition of a name. -/
def findCondition? (conditions : List Condition) (name : String) : Option Condition :=
  conditions.find? (·.name == name)

/-- Adds a condition; one of the same name gives its place to it. -/
def declare (condition : Condition) : List Condition → List Condition
  | [] => [condition]
  | other :: rest =>
    if other.name = condition.name then condition :: rest else other :: declare condition rest

/-! ## Order of dependence -/

/-- The conditions that are not being visited. -/
def unvisited (conditions : List Condition) (visiting : List String) : List Condition :=
  conditions.filter fun c => !visiting.contains c.name

theorem length_unvisited_lt {conditions : List Condition} {visiting : List String} {name : String}
    {c : Condition} (h : findCondition? conditions name = some c)
    (hname : ¬ visiting.contains name = true) :
    (unvisited conditions (name :: visiting)).length < (unvisited conditions visiting).length := by
  obtain rfl : c.name = name := by simpa using List.find?_some h
  have hshape : unvisited conditions (c.name :: visiting) =
      (unvisited conditions visiting).filter (·.name != c.name) := by
    simp only [unvisited, List.filter_filter]
    refine List.filter_congr fun other _ => ?_
    simp only [List.contains_cons, Bool.not_or]
    rfl
  rw [hshape]
  refine List.length_filter_lt_length_iff_exists.mpr ⟨c, ?_, by simp⟩
  simpa [unvisited, List.mem_of_find?_eq_some h] using hname

/-- Visits some names one after another, each with what is finished by then. -/
def visitEach (visit : List Condition → String → Except String (List Condition))
    (finished : List Condition) : List String → Except String (List Condition)
  | [] => .ok finished
  | name :: names =>
    match visit finished name with
    | .error repeated => .error repeated
    | .ok finished => visitEach visit finished names

/--
Visits the condition of a name, if there is one, in the middle of visiting others. Gives the
conditions finished by then, the last one first, or else the name that is met twice.
-/
def visit (references : Condition → List String) (conditions : List Condition)
    (visiting : List String) (finished : List Condition) (name : String) :
    Except String (List Condition) :=
  if (findCondition? finished name).isSome then .ok finished
  else if _hname : visiting.contains name then .error name
  else
    match _h : findCondition? conditions name with
    | none => .ok finished
    | some c =>
      match visitEach (visit references conditions (name :: visiting)) finished (references c) with
      | .error repeated => .error repeated
      | .ok finished => .ok (c :: finished)
termination_by (unvisited conditions visiting).length
decreasing_by
  exact length_unvisited_lt _h _hname

/-! ## The registry -/

/-- Compiled conditions. -/
structure Registry where
  /-- In the order in which the names were first declared. -/
  conditions : List Condition
  /-- The same conditions, each before all that it refers to. -/
  ordered : List Condition

namespace Registry

/-- Parses definitions one after another. -/
def parseAll (known : List String) (conditions : List Condition) :
    List ConditionDefinition → Except DefinitionError (List Condition)
  | [] => .ok conditions
  | d :: rest =>
    match Expression.parse known d.value with
    | .error e => .error (.ofParseError d.value d.name e)
    | .ok expression => parseAll known (declare ⟨d.name, d.value, expression⟩ conditions) rest

/-- Puts conditions in order, visiting references as `references` lists them. -/
def ofConditions (references : Condition → List String) (conditions : List Condition) :
    Except DefinitionError Registry :=
  match visitEach (visit references conditions []) [] (conditions.map Condition.name) with
  | .error name => .error (.circularCondition name)
  | .ok ordered => .ok ⟨conditions, ordered⟩

/-- Compiles definitions, visiting references as `references` lists them. Of several definitions
with one name the last counts, in the place of the first. -/
def compileVisiting (references : Condition → List String)
    (definitions : List ConditionDefinition) : Except DefinitionError Registry :=
  match parseAll (definitions.map ConditionDefinition.name) [] definitions with
  | .error e => .error e
  | .ok conditions => ofConditions references conditions

/-- Compiles definitions, visiting references from left to right. -/
def compile (definitions : List ConditionDefinition) : Except DefinitionError Registry :=
  compileVisiting Condition.references definitions

/-- The condition of a name. -/
def get? (registry : Registry) (name : String) : Option Condition :=
  findCondition? registry.conditions name

/-- Whether a name is declared. -/
def has (registry : Registry) (name : String) : Bool :=
  (registry.get? name).isSome

/-- The declared names. -/
def names (registry : Registry) : List String :=
  registry.conditions.map Condition.name

/-- Parses an expression that stands outside the registry; `referrer` holds it. -/
def parse (registry : Registry) (source referrer : String) : Except DefinitionError Expression :=
  match Expression.parse registry.names source with
  | .error e => .error (.ofParseError source referrer e)
  | .ok expression => .ok expression

/-- The single-name fields that conditions read although no such answer is known. -/
def unknownFields (registry : Registry) (known : List String) : List (String × FieldPath) :=
  registry.conditions.flatMap fun c =>
    let unknown := c.expression.fields.filter fun path =>
      path.rest.isEmpty && !known.contains path.first
    (unknown.eraseDups.mergeSort fun a b => !(b.first < a.first)).map (c.name, ·)

end Registry

end Questionnaire
