import Questionnaire.Proofs.Condition.InPlace

/-!
# Conditions as variables

A reference reads like a variable that is true or false as its condition holds. Putting in the place
of every reference what its condition evaluates to (`Registry.answered`) leaves an expression's value
as it is, unless evaluation comes to a reference whose condition fails (`Meets`, `Registry.Fails`). As
conditions are evaluated in place, such a failure is that of the whole expression, whereas the
condition on its own does not hold.
-/

namespace Questionnaire

/-- Puts an expression in the place of every reference. -/
def Expression.replaceReferences (f : String → Expression) : Expression → Expression
  | .literal v => .literal v
  | .field path => .field path
  | .condition name => f name
  | .not e => .not (e.replaceReferences f)
  | .binary op l r => .binary op (l.replaceReferences f) (r.replaceReferences f)

/-- Evaluating an expression comes to a reference: no operand in front of it fails, or decides alone. -/
inductive Meets (registry : Registry) (context : EvaluationContext) : Expression → String → Prop
  | reference (name : String) : Meets registry context (.condition name) name
  | not {e : Expression} {name : String} (h : Meets registry context e name) :
      Meets registry context (.not e) name
  | left {op : Operator} {l r : Expression} {name : String} (h : Meets registry context l name) :
      Meets registry context (.binary op l r) name
  | right {op : Operator} {l r : Expression} {name : String} {v : Value}
      (hleft : registry.value l context = .ok v) (hcut : op.shortCut v.isTruthy = false)
      (h : Meets registry context r name) : Meets registry context (.binary op l r) name

namespace Registry

/-- Whether a reference fails: its name is unknown, or evaluating its condition ends in an error. -/
def Fails (registry : Registry) (name : String) (context : EvaluationContext) : Prop :=
  ∃ error, registry.trace (.condition name) context = .error error

/-- The expression with the truth of every reference's condition in the place of the reference. -/
def answered (registry : Registry) (context : EvaluationContext) (e : Expression) : Expression :=
  e.replaceReferences fun name => .literal (.bool (registry.evaluate name context))

section

variable {registry : Registry} {context : EvaluationContext}

/-- A reference that does not fail comes to the truth of its condition. -/
theorem value_reference (h : Compiled registry) {name : String}
    (hname : ¬ registry.Fails name context) :
    registry.value (.condition name) context = .ok (.bool (registry.evaluate name context)) := by
  cases hc : registry.get? name with
  | none =>
      exact absurd ⟨_, value_eq_error_iff.mp (value_condition_unknown h hc)⟩ hname
  | some c =>
      have hevaluate : registry.evaluate name context =
          (registry.verdict c.expression context).toOption.getD false := by
        rw [← holds_eq, evaluate, hc]
      rw [hevaluate, value_condition h hc]
      cases hverdict : registry.verdict c.expression context with
      | ok b => rfl
      | error error =>
          have hreference := (verdict_condition h hc).trans hverdict
          exact absurd ⟨error, verdict_eq_error_iff.mp hreference⟩ hname

/-- Only the references that evaluation comes to have to keep their values. -/
theorem value_replaceReferences {f : String → Expression} {e : Expression}
    (h : ∀ name, Meets registry context e name →
      registry.value (f name) context = registry.value (.condition name) context) :
    registry.value (e.replaceReferences f) context = registry.value e context := by
  induction e with
  | literal _ => rfl
  | field _ => rfl
  | condition name => exact h name (.reference name)
  | not operand ih =>
      rw [Expression.replaceReferences, value_not, value_not, ih fun name hname => h name hname.not]
  | binary op l r ihl ihr =>
      rw [Expression.replaceReferences, value_binary, value_binary,
        ihl fun name hname => h name hname.left]
      cases hleft : registry.value l context with
      | error error => rfl
      | ok v =>
          cases hcut : op.shortCut v.isTruthy with
          | true => simp only [Except.bind, hcut, if_true]
          | false =>
              simp only [Except.bind, hcut, Bool.false_eq_true, if_false,
                ihr fun name hname => h name (hname.right hleft hcut)]

end

end Registry

/-- A reference that fails makes every expression fail whose evaluation comes to it. -/
theorem Meets.trace_eq_error {registry : Registry} {context : EvaluationContext} {e : Expression}
    {name : String} (h : Meets registry context e name) {error : EvaluationError}
    (hname : registry.trace (.condition name) context = .error error) :
    registry.trace e context = .error error := by
  rw [← Registry.value_eq_error_iff] at hname ⊢
  induction h with
  | reference _ => exact hname
  | not _ ih =>
      rw [Registry.value_not, ih hname]
      rfl
  | left _ ih =>
      rw [Registry.value_binary, ih hname]
      rfl
  | right hleft hcut _ ih =>
      simp only [Registry.value_binary, hleft, Except.bind, hcut, Bool.false_eq_true, if_false,
        ih hname]

namespace Registry

/-- Conditions are boolean variables to the expressions that refer to them, as far as they do not
fail. With the truth of every condition in the place of its references, an expression comes to the
same value, or to the same error, unless evaluation comes to a reference that fails; then the
expression fails with that reference's error. So it holds as before, except where evaluation comes to
a reference that fails and the truth of the conditions would let the expression hold. -/
theorem holds_answered {definitions : List ConditionDefinition} {registry : Registry}
    (h : compile definitions = .ok registry) (e : Expression) (context : EvaluationContext) :
    ((∀ name, Meets registry context e name → ¬ registry.Fails name context) →
        registry.value (registry.answered context e) context = registry.value e context) ∧
      (∀ name error, Meets registry context e name →
        registry.trace (.condition name) context = .error error →
          registry.trace e context = .error error) ∧
      (registry.holds (registry.answered context e) context ≠ registry.holds e context ↔
        registry.holds (registry.answered context e) context = true ∧
          ∃ name, Meets registry context e name ∧ registry.Fails name context) := by
  have hvalue (hmet : ∀ name, Meets registry context e name → ¬ registry.Fails name context) :
      registry.value (registry.answered context e) context = registry.value e context :=
    value_replaceReferences fun name hname =>
      (value_reference (compiled_of_compile h) (hmet name hname)).symm
  refine ⟨hvalue, fun name error hname => hname.trace_eq_error, ?_⟩
  by_cases hfails : ∃ name, Meets registry context e name ∧ registry.Fails name context
  · obtain ⟨name, hname, error, herror⟩ := hfails
    have hfalse : registry.holds e context = false := by
      rw [holds, hname.trace_eq_error herror]
    rw [hfalse, ne_eq, Bool.not_eq_false]
    exact ⟨fun htrue => ⟨htrue, name, hname, error, herror⟩, And.left⟩
  · have hsame := hvalue fun name hname hname' => hfails ⟨name, hname, hname'⟩
    have hholds : registry.holds (registry.answered context e) context = registry.holds e context := by
      rw [holds_eq, holds_eq, verdict, verdict, hsame]
    exact ⟨fun hne => absurd hholds hne, fun hboth => absurd hboth.2 hfails⟩

/-- With children it does not matter whether somebody is single: the reference, which fails as long as
no status is given, is not come to. -/
theorem holds_answered_children :
    ∃ e, statusRegistry.parse "children or single" "page" = .ok e ∧
      let context : EvaluationContext := ⟨none, [("children", .bool true)]⟩
      statusRegistry.Fails "single" context ∧
        statusRegistry.value (statusRegistry.answered context e) context = .ok (.bool true) := by
  refine ⟨.binary .or (.field ⟨"children", []⟩) (.condition "single"), by with_unfolding_all rfl, ?_, ?_⟩
  · exact ⟨.missingField ⟨"status", []⟩, by with_unfolding_all rfl⟩
  · refine ((holds_answered compile_statusRules _ _).1 fun name hname => ?_).trans (by with_unfolding_all rfl)
    cases hname with
    | left h => cases h
    | right hleft hcut _ =>
        cases hleft.symm.trans (by with_unfolding_all rfl : _ = Except.ok (Value.bool true))
        exact absurd hcut (by decide)

/-- As long as no status is given, neither that somebody is married holds nor that they are not. -/
theorem exists_holds_answered_ne :
    ∃ registry e context, compile statusRules = .ok registry ∧
      registry.parse "not married" "page" = .ok e ∧
      registry.holds (registry.answered context e) context = true ∧
      registry.holds e context = false := by
  refine ⟨statusRegistry, .not (.condition "married"), ⟨none, []⟩, compile_statusRules, by with_unfolding_all rfl, ?_⟩
  exact ⟨by with_unfolding_all rfl, by with_unfolding_all rfl⟩

end Registry

end Questionnaire
