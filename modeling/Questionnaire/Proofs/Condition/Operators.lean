import Mathlib.Data.List.Forall2
import Mathlib.Data.List.Infix
import Mathlib.Data.String.Basic
import Questionnaire.Condition.Evaluation
import Questionnaire.Proofs.Number.Place

/-!
# What the operators say

The operators between two values, told without the functions that compute them (`Operator.Gives`):
`and` and `or` go by whether a value is truthy, equality by value, the orderings by the place of a
number among all numbers or by the code points of a text, and `in` by what a list holds or what
stands inside a text. An ordering of other values, and `in` before anything but a list or a text
inside a text, give nothing. Applying an operator gives exactly that (`Operator.apply_eq_ok_iff`).
-/

namespace Questionnaire

theorem occursIn_iff {part whole : List Char} : occursIn part whole = true ↔ part <:+: whole := by
  induction whole with
  | nil => simp [occursIn]
  | cons c rest ih => simp [occursIn, ih, List.infix_cons_iff]

/-! ## Equality -/

/-- Two values are equal: numbers that stand at one place, and the same otherwise, item by item. -/
inductive Value.Equals : Value → Value → Prop
  | number {x y : Extended64} (h : x.place = y.place) : Equals (.number x) (.number y)
  | bool (b : Bool) : Equals (.bool b) (.bool b)
  | text (s : String) : Equals (.text s) (.text s)
  | list {xs ys : List Value} (h : List.Forall₂ Equals xs ys) : Equals (.list xs) (.list ys)
  | null : Equals .null .null

mutual

theorem Value.same_iff : ∀ v w : Value, v.same w = true ↔ v.Equals w
  | .number x, .number y => by
      rw [Value.same, x.same_iff]
      exact ⟨.number, fun | .number h => h⟩
  | .bool a, .bool b => by
      rw [Value.same, beq_iff_eq]
      exact ⟨fun h => h ▸ .bool a, fun | .bool _ => rfl⟩
  | .text s, .text t => by
      rw [Value.same, beq_iff_eq]
      exact ⟨fun h => h ▸ .text s, fun | .text _ => rfl⟩
  | .list xs, .list ys => by
      rw [Value.same, sameValues_iff xs ys]
      exact ⟨.list, fun | .list h => h⟩
  | .null, .null => by
      rw [Value.same]
      exact ⟨fun _ => .null, fun _ => rfl⟩
  | .number _, .bool _ | .number _, .text _ | .number _, .list _ | .number _, .null
  | .bool _, .number _ | .bool _, .text _ | .bool _, .list _ | .bool _, .null
  | .text _, .number _ | .text _, .bool _ | .text _, .list _ | .text _, .null
  | .list _, .number _ | .list _, .bool _ | .list _, .text _ | .list _, .null
  | .null, .number _ | .null, .bool _ | .null, .text _ | .null, .list _ =>
      ⟨fun h => by simp [Value.same] at h, fun h => nomatch h⟩

theorem sameValues_iff :
    ∀ xs ys : List Value, sameValues xs ys = true ↔ List.Forall₂ Value.Equals xs ys
  | [], [] => by simp [sameValues]
  | [], _ :: _ | _ :: _, [] => by simp [sameValues]
  | x :: xs, y :: ys => by
      rw [sameValues, Bool.and_eq_true, x.same_iff y, sameValues_iff xs ys, List.forall₂_cons]

end

/-! ## Operators -/

namespace Operator

/-- Whether an operator compares by size. -/
def isOrdering : Operator → Bool
  | .greater | .greaterOrEqual | .less | .lessOrEqual => true
  | _ => false

/-- What an ordering operator says of two things that have an order. -/
def Orders {α : Type} [LE α] [LT α] (op : Operator) (x y : α) : Prop :=
  match op with
  | .greater => y < x
  | .greaterOrEqual => y ≤ x
  | .less => x < y
  | .lessOrEqual => x ≤ y
  | _ => False

/-- What an operator gives for two values, if it takes them. -/
inductive Gives : Operator → Value → Value → Bool → Prop
  | or {v w : Value} {b : Bool}
      (h : b = true ↔ v.isTruthy = true ∨ w.isTruthy = true) : Gives .or v w b
  | and {v w : Value} {b : Bool}
      (h : b = true ↔ v.isTruthy = true ∧ w.isTruthy = true) : Gives .and v w b
  | equal {v w : Value} {b : Bool} (h : b = true ↔ v.Equals w) : Gives .equal v w b
  | notEqual {v w : Value} {b : Bool} (h : b = true ↔ ¬ v.Equals w) : Gives .notEqual v w b
  | numbers {op : Operator} {x y : Extended64} {b : Bool} (hop : op.isOrdering = true)
      (h : b = true ↔ op.Orders x.place y.place) : Gives op (.number x) (.number y) b
  | texts {op : Operator} {s t : String} {b : Bool} (hop : op.isOrdering = true)
      (h : b = true ↔ op.Orders s t) : Gives op (.text s) (.text t) b
  | item {v : Value} {items : List Value} {b : Bool}
      (h : b = true ↔ ∃ item ∈ items, item.Equals v) : Gives .member v (.list items) b
  | part {s t : String} {b : Bool} (h : b = true ↔ s.toList <:+: t.toList) :
      Gives .member (.text s) (.text t) b

/-- An ordering operator asks of two tests, for below and above, what it says of the two things that
they are about. -/
theorem holdsOf_iff {α : Type} [LinearOrder α] {x y : α} {below above : Prop} [Decidable below]
    [Decidable above] (op : Operator) (hbelow : below ↔ x < y) (habove : above ↔ y < x) :
    op.holdsOf (if below then .lt else if above then .gt else .eq) = true ↔ op.Orders x y := by
  by_cases hlt : x < y
  · cases op <;> simp [holdsOf, Orders, hbelow, hlt, hlt.le]
  · by_cases hgt : y < x <;> cases op <;>
      simp [holdsOf, Orders, hbelow, habove, hlt, hgt, ← not_lt]

theorem holdsOf_order (op : Operator) (x y : Extended64) :
    op.holdsOf (x.order y) = true ↔ op.Orders x.place y.place :=
  holdsOf_iff op (x.lt_iff y) (y.lt_iff x)

theorem holdsOf_textOrder (op : Operator) (s t : String) :
    op.holdsOf (textOrder s t) = true ↔ op.Orders s t :=
  holdsOf_iff op Iff.rfl Iff.rfl

/-- An operator that always answers gives what its answer says. -/
theorem ok_eq_ok_iff {answer b : Bool} {p : Prop} (h : answer = true ↔ p) :
    (Except.ok answer : Except EvaluationError Bool) = .ok b ↔ (b = true ↔ p) := by
  rw [Except.ok.injEq, ← h]
  cases answer <;> cases b <;> simp

theorem apply_eq_order {op : Operator} (hop : op.isOrdering = true) (v w : Value) :
    op.apply v w = op.order v w := by
  cases op <;> first | rfl | exact nomatch hop

theorem gives_of_order {op : Operator} (hop : op.isOrdering = true) {v w : Value} {b : Bool}
    (h : op.order v w = .ok b) : op.Gives v w b := by
  unfold order at h
  split at h
  · next x y => exact .numbers hop ((ok_eq_ok_iff (holdsOf_order op x y)).mp h)
  · next s t => exact .texts hop ((ok_eq_ok_iff (holdsOf_textOrder op s t)).mp h)
  all_goals exact nomatch h

theorem any_same_iff {v : Value} {items : List Value} :
    items.any (·.same v) = true ↔ ∃ item ∈ items, item.Equals v := by
  simp only [List.any_eq_true, Value.same_iff]

theorem gives_of_member {v w : Value} {b : Bool} (h : member.apply v w = .ok b) :
    member.Gives v w b := by
  unfold apply at h
  dsimp only at h
  split at h
  · next items => exact .item ((ok_eq_ok_iff any_same_iff).mp h)
  · next s t => exact .part ((ok_eq_ok_iff occursIn_iff).mp h)
  · exact nomatch h

/-- Applying an operator gives what it says, and nothing where it says nothing. -/
theorem apply_eq_ok_iff {op : Operator} {v w : Value} {b : Bool} :
    op.apply v w = .ok b ↔ op.Gives v w b := by
  have hor : (v.isTruthy || w.isTruthy) = true ↔ _ := Bool.or_eq_true_iff
  have hand : (v.isTruthy && w.isTruthy) = true ↔ _ := Bool.and_eq_true_iff
  have hequal := v.same_iff w
  have hnotEqual : (!v.same w) = true ↔ ¬ v.Equals w := by simp [← hequal]
  constructor
  · intro h
    cases op with
    | or => exact .or ((ok_eq_ok_iff hor).mp h)
    | and => exact .and ((ok_eq_ok_iff hand).mp h)
    | equal => exact .equal ((ok_eq_ok_iff hequal).mp h)
    | notEqual => exact .notEqual ((ok_eq_ok_iff hnotEqual).mp h)
    | member => exact gives_of_member h
    | greater | greaterOrEqual | less | lessOrEqual => exact gives_of_order rfl h
  · intro h
    cases h with
    | or h => exact (ok_eq_ok_iff hor).mpr h
    | and h => exact (ok_eq_ok_iff hand).mpr h
    | equal h => exact (ok_eq_ok_iff hequal).mpr h
    | notEqual h => exact (ok_eq_ok_iff hnotEqual).mpr h
    | numbers hop h =>
        rw [apply_eq_order hop]
        exact (ok_eq_ok_iff (holdsOf_order ..)).mpr h
    | texts hop h =>
        rw [apply_eq_order hop]
        exact (ok_eq_ok_iff (holdsOf_textOrder ..)).mpr h
    | item h => exact (ok_eq_ok_iff any_same_iff).mpr h
    | part h => exact (ok_eq_ok_iff occursIn_iff).mpr h

end Operator

end Questionnaire
