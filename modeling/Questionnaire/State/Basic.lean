import Questionnaire.Json.Printer

/-!
# Answers

The state of a questionnaire holds typed answers by field or section name; a submission holds texts,
or arrays of texts, by field name. Both are objects. Answers travel as texts through a form, so two
scalars count as loosely equal when they are submitted alike: `2` and `"2"`.
-/

namespace Questionnaire

/-- The answers given so far. -/
abbrev State := Fields

/-- The data submitted from a form. -/
abbrev FormData := Fields

namespace Json

/-- Whether an answer counts as given. -/
def isTruthy : Json → Bool
  | .null => false
  | .bool b => b
  | .num n => !n.toBinary64.isZero
  | .str s => s != ""
  | .arr items => !items.isEmpty
  | .obj _ => true

/-- The text by which an answer is submitted. -/
def formText : Json → String
  | .null => ""
  | .str s => s
  | j => j.compress

/-- Whether a value is neither null nor an array nor an object. -/
def isScalar : Json → Bool
  | .bool _ | .num _ | .str _ => true
  | _ => false

/-- Equality that also identifies two scalars submitted alike. -/
def looseEq (a b : Json) : Bool :=
  a.same b || (a.isScalar && b.isScalar && a.formText == b.formText)

/-- Whether an answer picks a value: it is that value, or an array holding it. -/
def selects (answer value : Json) : Bool :=
  match answer with
  | .arr items => items.any (·.looseEq value)
  | j => j.looseEq value

@[simp] theorem looseEq_refl (a : Json) : a.looseEq a = true := by simp [looseEq]

theorem looseEq_comm (a b : Json) : a.looseEq b = b.looseEq a := by
  simp [looseEq, same_comm a b, Bool.and_comm, BEq.comm (a := a.formText)]

end Json

end Questionnaire
