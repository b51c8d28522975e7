import Mathlib.Logic.Relation
import Questionnaire.Proofs.Condition.Evaluation

/-!
# References are evaluated in place

What an evaluation comes to, without the trace of how: a value (`Registry.value`), of which a route
or another condition asks only whether it is truthy (`Registry.verdict`). An expression's verdict is
made of the verdicts of its parts as long as `and`, `or` and `not` put them together, and a reference
has the verdict of its condition. So a reference may give way to the expression of its condition
(`Expands`): neither the verdict changes nor the error, if evaluation ends in one.
-/

namespace Questionnaire

namespace Registry

/-- What an expression evaluates to. -/
def value (registry : Registry) (e : Expression) (context : EvaluationContext) :
    Except EvaluationError Value :=
  (registry.trace e context).map Trace.outcome

/-- Whether what an expression evaluates to is truthy. -/
def verdict (registry : Registry) (e : Expression) (context : EvaluationContext) :
    Except EvaluationError Bool :=
  (registry.value e context).map Value.isTruthy

section

variable {registry : Registry} {context : EvaluationContext}

theorem value_eq_error_iff {e : Expression} {error : EvaluationError} :
    registry.value e context = .error error ↔ registry.trace e context = .error error := by
  rw [value]
  cases registry.trace e context <;> simp [Except.map]

theorem verdict_eq_error_iff {e : Expression} {error : EvaluationError} :
    registry.verdict e context = .error error ↔ registry.trace e context = .error error := by
  rw [← value_eq_error_iff, verdict]
  cases registry.value e context <;> simp [Except.map]

/-- An expression holds when its verdict says so, and never when it has none. -/
theorem holds_eq (registry : Registry) (e : Expression) (context : EvaluationContext) :
    registry.holds e context = (registry.verdict e context).toOption.getD false := by
  rw [holds, verdict, value]
  cases registry.trace e context <;> rfl

/-! ## Values of the parts -/

theorem value_not (e : Expression) :
    registry.value (.not e) context =
      (registry.value e context).map fun v => .bool !v.isTruthy := by
  simp only [value, trace, Expression.trace]
  cases e.trace context (resolve context registry.ordered) <;> rfl

/-- The right operand counts only where the left one does not decide. -/
theorem value_binary (op : Operator) (l r : Expression) :
    registry.value (.binary op l r) context =
      (registry.value l context).bind fun v =>
        if op.shortCut v.isTruthy then .ok (.bool v.isTruthy)
        else (registry.value r context).bind fun w => (op.apply v w).map .bool := by
  simp only [value, trace, Expression.trace]
  cases l.trace context (resolve context registry.ordered) with
  | error error => rfl
  | ok left =>
      simp only [Except.map, Except.bind]
      cases op.shortCut left.outcome.isTruthy with
      | true => rfl
      | false =>
          cases r.trace context (resolve context registry.ordered) with
          | error error => rfl
          | ok right =>
              simp only [Bool.false_eq_true, if_false]
              cases op.apply left.outcome right.outcome <;> rfl

/-- A reference comes to the verdict of its condition. -/
theorem value_condition (h : Compiled registry) {name : String} {c : Condition}
    (hc : registry.get? name = some c) :
    registry.value (.condition name) context =
      (registry.verdict c.expression context).map .bool := by
  have hbody : resolve context registry.ordered name =
      c.expression.trace context (resolve context registry.ordered) := by
    rw [h.follows context name, hc]
  simp only [value, verdict, trace, Expression.trace, hbody]
  cases c.expression.trace context (resolve context registry.ordered) <;> rfl

theorem value_condition_unknown (h : Compiled registry) {name : String}
    (hnone : registry.get? name = none) :
    registry.value (.condition name) context = .error (.unknownCondition name) := by
  have hbody : resolve context registry.ordered name = .error (.unknownCondition name) := by
    rw [h.follows context name, hnone]
  simp only [value, trace, Expression.trace, hbody]
  rfl

/-! ## Verdicts of the parts -/

theorem verdict_not (e : Expression) :
    registry.verdict (.not e) context = (registry.verdict e context).map (!·) := by
  rw [verdict, value_not, verdict]
  cases registry.value e context <;> rfl

/-- Of the operands of `and` and `or` only the verdicts count. -/
theorem verdict_binary {op : Operator} (hop : op.isComparison = false) (l r : Expression) :
    registry.verdict (.binary op l r) context =
      (registry.verdict l context).bind fun b =>
        if op.shortCut b then .ok b else registry.verdict r context := by
  have happly (v w : Value) (hcut : op.shortCut v.isTruthy = false) :
      op.apply v w = .ok w.isTruthy := by
    cases op <;> simp_all [Operator.apply, Operator.shortCut, Operator.isComparison]
  rw [verdict, value_binary, verdict, verdict]
  cases registry.value l context with
  | error error => rfl
  | ok v =>
      simp only [Except.map, Except.bind]
      cases hcut : op.shortCut v.isTruthy with
      | true => rfl
      | false =>
          cases registry.value r context with
          | error error => rfl
          | ok w =>
              simp only [Bool.false_eq_true, if_false, happly v w hcut]
              rfl

theorem verdict_condition (h : Compiled registry) {name : String} {c : Condition}
    (hc : registry.get? name = some c) :
    registry.verdict (.condition name) context = registry.verdict c.expression context := by
  rw [verdict, value_condition h hc]
  cases registry.verdict c.expression context <;> rfl

end

end Registry

/-! ## Expanding references -/

/-- One reference gives way to the expression of its condition, at a place to which only `and`, `or`
and `not` lead. -/
inductive Expands (registry : Registry) : Expression → Expression → Prop
  | reference {name : String} {c : Condition} (h : registry.get? name = some c) :
      Expands registry (.condition name) c.expression
  | not {e e' : Expression} (h : Expands registry e e') : Expands registry (.not e) (.not e')
  | left {op : Operator} {l l' r : Expression} (hop : op.isComparison = false)
      (h : Expands registry l l') : Expands registry (.binary op l r) (.binary op l' r)
  | right {op : Operator} {l r r' : Expression} (hop : op.isComparison = false)
      (h : Expands registry r r') : Expands registry (.binary op l r) (.binary op l r')

/-- Expanding one reference leaves the verdict as it is. -/
theorem Expands.verdict_eq {registry : Registry} (hcompiled : Compiled registry)
    {e e' : Expression} (h : Expands registry e e') (context : EvaluationContext) :
    registry.verdict e' context = registry.verdict e context := by
  induction h with
  | reference hc => exact (Registry.verdict_condition hcompiled hc).symm
  | not _ ih => rw [Registry.verdict_not, Registry.verdict_not, ih]
  | left hop _ ih => rw [Registry.verdict_binary hop, Registry.verdict_binary hop, ih]
  | right hop _ ih => rw [Registry.verdict_binary hop, Registry.verdict_binary hop, ih]

/-- Expanding references one after another, those of what they expand to included, leaves the
verdict as it is. -/
theorem verdict_eq_of_expansions {registry : Registry} (hcompiled : Compiled registry)
    {e e' : Expression} (h : Relation.ReflTransGen (Expands registry) e e')
    (context : EvaluationContext) :
    registry.verdict e' context = registry.verdict e context := by
  induction h with
  | refl => rfl
  | tail _ hstep ih => rw [hstep.verdict_eq hcompiled, ih]

namespace Registry

/-- Conditions can be expanded in place: a reference, or one reference after another, may give way to
the expression of its condition wherever only `and`, `or` and `not` lead. The expression holds as it
did, and evaluation fails as it did, with the same error. -/
theorem holds_expanded {definitions : List ConditionDefinition} {registry : Registry}
    (h : compile definitions = .ok registry) {e e' : Expression}
    (hexpands : Relation.ReflTransGen (Expands registry) e e') (context : EvaluationContext) :
    registry.holds e' context = registry.holds e context ∧
      ∀ error, registry.trace e' context = .error error ↔ registry.trace e context = .error error := by
  have hverdict := verdict_eq_of_expansions (compiled_of_compile h) hexpands context
  refine ⟨?_, fun error => ?_⟩
  · rw [holds_eq, holds_eq, hverdict]
  · rw [← verdict_eq_error_iff, ← verdict_eq_error_iff, hverdict]

/-- Rules about marital status. -/
def statusRules : List ConditionDefinition :=
  [⟨"single", "not married"⟩, ⟨"married", "status == 'married'"⟩]

/-- The rules about marital status, compiled. -/
def statusRegistry : Registry :=
  let isSingle : Condition := ⟨"single", "not married", .not (.condition "married")⟩
  let isMarried : Condition := ⟨"married", "status == 'married'",
    .binary .equal (.field ⟨"status", []⟩) (.literal (.text "married"))⟩
  ⟨[isSingle, isMarried], [isSingle, isMarried]⟩

theorem compile_statusRules : compile statusRules = .ok statusRegistry := by with_unfolding_all rfl

/-- Both references of `single and not children`, one inside the other, are expanded. Where no status
is given, the error is that of the innermost condition, before and after. -/
theorem holds_expanded_single :
    ∃ e, statusRegistry.parse "single and not children" "page" = .ok e ∧
      let expanded : Expression := .binary .and
        (.not (.binary .equal (.field ⟨"status", []⟩) (.literal (.text "married"))))
        (.not (.field ⟨"children", []⟩))
      Relation.ReflTransGen (Expands statusRegistry) e expanded ∧
        statusRegistry.holds expanded
          ⟨none, [("children", .bool false), ("status", .str "widowed")]⟩ = true ∧
        statusRegistry.trace expanded ⟨none, [("children", .bool false)]⟩ =
          .error (.missingField ⟨"status", []⟩) := by
  refine ⟨.binary .and (.condition "single") (.not (.field ⟨"children", []⟩)), by with_unfolding_all rfl, ?_⟩
  have hsingle : Expands statusRegistry (.condition "single") (.not (.condition "married")) :=
    .reference (by with_unfolding_all rfl : _ = some statusRegistry.conditions[0])
  have hmarried : Expands statusRegistry (.condition "married")
      (.binary .equal (.field ⟨"status", []⟩) (.literal (.text "married"))) :=
    .reference (by with_unfolding_all rfl : _ = some statusRegistry.conditions[1])
  have inLeft {l l' : Expression} (h : Expands statusRegistry l l') :
      Expands statusRegistry (.binary .and l (.not (.field ⟨"children", []⟩)))
        (.binary .and l' (.not (.field ⟨"children", []⟩))) := h.left rfl
  have hexpands := (Relation.ReflTransGen.single (inLeft hsingle)).tail (inLeft hmarried.not)
  refine ⟨hexpands, ?_, ?_⟩
  · refine (holds_expanded compile_statusRules hexpands _).1.trans ?_
    with_unfolding_all rfl
  · refine ((holds_expanded compile_statusRules hexpands _).2 _).mpr ?_
    with_unfolding_all rfl

end Registry

end Questionnaire
