import Questionnaire.Expression.Printer
import Questionnaire.Proofs.Expression.Numerals
import Questionnaire.Proofs.Expression.Grammar

/-!
# Legible expressions

The expressions whose print can be read back: their names, texts and numbers are written the way
they are read, and an operand of a comparison is a single value or stands in parentheses
(`Expression.Legible`). Expressions are compared by value, the two zeros being one
(`Expression.same`): zero is written without its sign.
-/

namespace Questionnaire

/-! ## Names and values -/

/-- The words that are operators. -/
def keywords : List String := ["and", "or", "not", "in"]

/-- A name that is read as it is written. A dollar sign never belongs to a name. -/
structure IsName (name : String) : Prop where
  start : name.toList.head?.any (fun c => Text.isLetter c || c == '_') = true
  parts : ∀ c ∈ name.toList, isWordPart c = true
  not_keyword : name ∉ keywords

theorem isName_iff (name : String) :
    IsName name ↔ name.toList.head?.any (fun c => Text.isLetter c || c == '_') = true ∧
      name.toList.all isWordPart = true ∧ name ∉ keywords := by
  rw [List.all_eq_true]
  exact ⟨fun h => ⟨h.start, h.parts, h.not_keyword⟩, fun h => ⟨h.1, h.2.1, h.2.2⟩⟩

instance (name : String) : Decidable (IsName name) :=
  decidable_of_iff _ (isName_iff name).symm

/-- A value that is written the way it is read. -/
def Value.Legible : Value → Prop
  | .number (.finite x) => x.Writable
  | .number (.infinite _) => False
  | .text s => ∀ c ∈ s.toList, c ≠ '\'' ∧ c ≠ '\\'
  | .list _ => False
  | .bool _ | .null => True

instance : (value : Value) → Decidable value.Legible
  | .number (.finite x) => inferInstanceAs (Decidable x.Writable)
  | .number (.infinite _) => inferInstanceAs (Decidable False)
  | .text s =>
    decidable_of_iff (s.toList.all (fun c => c != '\'' && c != '\\') = true)
      (by simp [Value.Legible])
  | .list _ => inferInstanceAs (Decidable False)
  | .bool _ => inferInstanceAs (Decidable True)
  | .null => inferInstanceAs (Decidable True)

/-! ## Expressions -/

/-- Whether an expression is a single value. -/
def Expression.IsValue (e : Expression) : Prop :=
  e.precedence = 9

instance (e : Expression) : Decidable e.IsValue :=
  inferInstanceAs (Decidable (_ = _))

/-- An operand that is read as one operand: a single value, or in parentheses at its place. -/
def Expression.Enclosed (place : Nat) (e : Expression) : Prop :=
  e.IsValue ∨ e.precedence < place

instance (place : Nat) (e : Expression) : Decidable (e.Enclosed place) :=
  inferInstanceAs (Decidable (_ ∨ _))

/-- An expression whose print is read as the expression. -/
def Expression.Legible : Expression → Prop
  | .literal value => value.Legible
  | .field path => ∀ name ∈ path.segments, IsName name
  | .condition name => IsName name
  | .not operand => operand.Legible
  | .binary op left right =>
    left.Legible ∧ right.Legible ∧
      (op.isComparison = true →
        left.Enclosed op.precedence ∧ right.Enclosed (op.precedence + 1))

instance Expression.decidableLegible : (e : Expression) → Decidable e.Legible
  | .literal value => inferInstanceAs (Decidable value.Legible)
  | .field path => inferInstanceAs (Decidable (∀ name ∈ path.segments, IsName name))
  | .condition name => inferInstanceAs (Decidable (IsName name))
  | .not operand => operand.decidableLegible
  | .binary _ left right =>
    haveI := left.decidableLegible
    haveI := right.decidableLegible
    inferInstanceAs (Decidable (_ ∧ _ ∧ (_ → _)))

/-- Equality of expressions: their values are equal by value, all else is the same. -/
def Expression.same : Expression → Expression → Bool
  | .literal v, .literal w => v.same w
  | .field p, .field q => decide (p = q)
  | .condition m, .condition n => decide (m = n)
  | .not a, .not b => a.same b
  | .binary op a b, .binary op' a' b' => decide (op = op') && a.same a' && b.same b'
  | _, _ => false

/-! ## What reading makes of a print -/

/-- The number with zero's sign forgotten. -/
def Extended64.unsignedZero : Extended64 → Extended64
  | .finite x => .finite x.unsignedZero
  | .infinite negative => .infinite negative

/-- A value as it is read back. -/
def Value.readBack : Value → Value
  | .number x => .number x.unsignedZero
  | value => value

/-- An expression as it is read back. -/
def Expression.readBack : Expression → Expression
  | .literal value => .literal value.readBack
  | .field path => .field path
  | .condition name => .condition name
  | .not operand => .not operand.readBack
  | .binary op left right => .binary op left.readBack right.readBack

@[simp] theorem precedence_readBack (e : Expression) : e.readBack.precedence = e.precedence := by
  cases e <;> rfl

@[simp] theorem conditions_readBack (e : Expression) : e.readBack.conditions = e.conditions := by
  induction e with
  | binary op left right ihl ihr => simp [Expression.readBack, Expression.conditions, ihl, ihr]
  | not operand ih => simpa [Expression.readBack, Expression.conditions] using ih
  | _ => rfl

theorem Value.readBack_same {value : Value} (h : value.Legible) :
    value.readBack.same value = true := by
  cases value with
  | number x =>
      cases x with
      | finite x =>
          show Binary64.same _ _ = true
          simp [Binary64.same, Binary64.toUnits_unsignedZero]
      | infinite _ => exact absurd h id
  | list _ => exact absurd h id
  | _ => simp [readBack, same]

/-- What is read back of a legible expression is the expression, by value. -/
theorem Expression.readBack_same {e : Expression} (h : e.Legible) : e.readBack.same e = true := by
  induction e with
  | literal value => exact Value.readBack_same h
  | field path => simp [readBack, same]
  | condition name => simp [readBack, same]
  | not operand ih => exact ih h
  | binary op left right ihl ihr => simp [readBack, same, ihl h.1, ihr h.2.1]

end Questionnaire
