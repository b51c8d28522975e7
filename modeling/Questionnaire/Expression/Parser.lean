import Questionnaire.Expression.Token
import Questionnaire.Text.Reading

/-!
# Reading expressions

The grammar, from loosest to tightest:

* a disjunction is conjunctions with `or` (`||`) between them;
* a conjunction is negations with `and` (`&&`) between them;
* a negation is `not` (`!`) and a negation, or a comparison;
* a comparison is an operand, or two operands with a comparison operator between them;
* an operand is a number, a text, `true`, `false`, `null` (`undefined`), a field path, `@` and the
  name of a condition, or a disjunction in parentheses.

Chains of `or` and of `and` associate to the left. A path of a single name that a condition has is a
reference to the condition. Each function reads one kind of phrase from the front of the tokens.
-/

namespace Questionnaire

/-- Why an expression's text is refused. -/
inductive ParseError where
  | malformed (problem : Malformed)
  | undeclared (name : String)
deriving DecidableEq

/-- What reading needs to know besides the tokens. -/
structure ParseContext where
  /-- The names of the conditions there are. -/
  known : List String
  /-- The position of the end of the text. -/
  finish : Nat

/-- The position at which some tokens begin. -/
def ParseContext.positionOf (context : ParseContext) : List Lexeme → Nat
  | [] => context.finish
  | lexeme :: _ => lexeme.position

/-- A left-associative chain of one operator. -/
def chain (op : Operator) (first : Expression) (others : List Expression) : Expression :=
  others.foldl (Expression.binary op) first

/-- The names behind the points of a path, and the tokens behind the path. -/
def pathRest (context : ParseContext) :
    (input : List Lexeme) →
      Except ParseError (List String × { rest : List Lexeme // rest.length ≤ input.length })
  | ⟨.point, _, _⟩ :: ⟨.word name, _, _⟩ :: input =>
    match pathRest context input with
    | .error e => .error e
    | .ok (names, ⟨rest, h⟩) =>
      .ok (name :: names, ⟨rest, Nat.le_trans h (by simp only [List.length_cons]; omega)⟩)
  | ⟨.point, _, _⟩ :: input => .error (.malformed ⟨context.positionOf input, .noFieldName⟩)
  | input => .ok ([], ⟨input, Nat.le_refl _⟩)

/-- The expression of a path. -/
def pathExpression (context : ParseContext) (first : String) (rest : List String) : Expression :=
  if rest.isEmpty && context.known.contains first then .condition first
  else .field ⟨first, rest⟩

/-- The literal that a word stands for. -/
def wordLiteral? (word : String) : Option Value :=
  match word with
  | "true" => some (.bool true)
  | "false" => some (.bool false)
  | "null" => some .null
  | "undefined" => some .null
  | _ => none

mutual

/-- Reads an operand. -/
def readOperand (context : ParseContext) (input : List Lexeme) :
    Except ParseError (Reading Expression input) :=
  match input with
  | [] => .error (.malformed ⟨context.finish, .endOfText⟩)
  | ⟨token, _, position⟩ :: rest =>
    match token with
    | .number x => .ok ⟨.literal (.number x), rest, Nat.lt_succ_self _⟩
    | .text s => .ok ⟨.literal (.text s), rest, Nat.lt_succ_self _⟩
    | .leftParen =>
      match readDisjunction context rest with
      | .error e => .error e
      | .ok inner =>
        match hr : inner.rest with
        | ⟨.rightParen, _, _⟩ :: rest' =>
          .ok ⟨inner.value, rest', by
            have := inner.shorter
            simp only [hr, List.length_cons] at this ⊢
            omega⟩
        | _ => .error (.malformed ⟨position, .unbalanced⟩)
    | .atSign =>
      match rest with
      | ⟨.word name, _, _⟩ :: rest' =>
        if context.known.contains name then
          .ok ⟨.condition name, rest', by simp only [List.length_cons]; omega⟩
        else .error (.undeclared name)
      | _ => .error (.malformed ⟨position, .noConditionName⟩)
    | .word word =>
      match wordLiteral? word with
      | some value => .ok ⟨.literal value, rest, Nat.lt_succ_self _⟩
      | none =>
        match pathRest context rest with
        | .error e => .error e
        | .ok (names, ⟨rest', h⟩) =>
          .ok ⟨pathExpression context word names, rest', Nat.lt_succ_of_le h⟩
    | token => .error (.malformed ⟨position, .noValue token⟩)
termination_by 6 * input.length

/-- Reads a comparison. -/
def readComparison (context : ParseContext) (input : List Lexeme) :
    Except ParseError (Reading Expression input) :=
  match readOperand context input with
  | .error e => .error e
  | .ok left =>
    match hr : left.rest with
    | ⟨.operator op, _, _⟩ :: rest =>
      if op.isComparison then
        have shorter : rest.length < input.length := by
          have := left.shorter
          simp only [hr, List.length_cons] at this
          omega
        match readOperand context rest with
        | .error e => .error e
        | .ok right =>
          .ok ⟨.binary op left.value right.value, right.rest, Nat.lt_trans right.shorter shorter⟩
      else .ok left
    | _ => .ok left
termination_by 6 * input.length + 1

/-- Reads a negation. -/
def readNegation (context : ParseContext) (input : List Lexeme) :
    Except ParseError (Reading Expression input) :=
  match input with
  | ⟨.notSign, _, _⟩ :: rest =>
    match readNegation context rest with
    | .error e => .error e
    | .ok operand => .ok ⟨.not operand.value, operand.rest, Nat.lt_succ_of_lt operand.shorter⟩
  | input => readComparison context input
termination_by 6 * input.length + 2

/-- Reads the operands of a conjunction. -/
def readConjuncts (context : ParseContext) (input : List Lexeme) :
    Except ParseError (Reading (Expression × List Expression) input) :=
  match readNegation context input with
  | .error e => .error e
  | .ok first =>
    match hr : first.rest with
    | ⟨.operator .and, _, _⟩ :: rest =>
      have shorter : rest.length < input.length := by
        have := first.shorter
        simp only [hr, List.length_cons] at this
        omega
      match readConjuncts context rest with
      | .error e => .error e
      | .ok others =>
        .ok ⟨(first.value, others.value.1 :: others.value.2), others.rest,
          Nat.lt_trans others.shorter shorter⟩
    | _ => .ok (first.map (·, []))
termination_by 6 * input.length + 3

/-- Reads the operands of a disjunction. -/
def readDisjuncts (context : ParseContext) (input : List Lexeme) :
    Except ParseError (Reading (Expression × List Expression) input) :=
  match readConjuncts context input with
  | .error e => .error e
  | .ok conjuncts =>
    let first := chain .and conjuncts.value.1 conjuncts.value.2
    match hr : conjuncts.rest with
    | ⟨.operator .or, _, _⟩ :: rest =>
      have shorter : rest.length < input.length := by
        have := conjuncts.shorter
        simp only [hr, List.length_cons] at this
        omega
      match readDisjuncts context rest with
      | .error e => .error e
      | .ok others =>
        .ok ⟨(first, others.value.1 :: others.value.2), others.rest,
          Nat.lt_trans others.shorter shorter⟩
    | _ => .ok (conjuncts.map fun _ => (first, []))
termination_by 6 * input.length + 4

/-- Reads a disjunction. -/
def readDisjunction (context : ParseContext) (input : List Lexeme) :
    Except ParseError (Reading Expression input) :=
  match readDisjuncts context input with
  | .error e => .error e
  | .ok disjuncts => .ok (disjuncts.map fun (first, others) => chain .or first others)
termination_by 6 * input.length + 5

end

namespace Expression

/-- Reads all of some tokens as one expression. -/
def ofTokens (context : ParseContext) (lexemes : List Lexeme) : Except ParseError Expression :=
  match readDisjunction context lexemes with
  | .error e => .error e
  | .ok read =>
    match read.rest with
    | [] => .ok read.value
    | lexeme :: _ => .error (.malformed ⟨lexeme.position, .trailing lexeme.token⟩)

/-- Reads a text as an expression, given the names of the conditions there are. -/
def parse (known : List String) (source : String) : Except ParseError Expression :=
  match tokens source with
  | .error problem => .error (.malformed problem)
  | .ok lexemes => ofTokens ⟨known, source.utf8ByteSize⟩ lexemes

end Expression

end Questionnaire
