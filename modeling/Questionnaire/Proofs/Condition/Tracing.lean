import Questionnaire.Proofs.Condition.InPlace
import Questionnaire.Proofs.Condition.Operators

/-!
# Traces are honest

What a trace has to be for an expression, said without evaluation: it has the expression's shape, each
reference opened to the expression of its condition (`Trace.Opens`), and each node in it has the
outcome that its parts account for (`Trace.Honest`). An operand may be missing only on the right of
`and` and `or`, and is exactly where the left one decides. Evaluation leaves a trace exactly when it is
such a one (`Compiled.trace_eq_ok_iff`), so there is never more than one.
-/

namespace Questionnaire

/-- The value that a field has in a context: that of the section, or else that of the whole. -/
inductive EvaluationContext.Reads (context : EvaluationContext) (path : FieldPath) : Value → Prop
  | scope {inner : State} {json : Json} {value : Value} (hscope : context.scope = some inner)
      (hat : inner.at? path = some json) (hvalue : Value.ofJson? json = some value) :
      Reads context path value
  | root {json : Json} {value : Value}
      (hscope : ∀ inner, context.scope = some inner → inner.at? path = none)
      (hat : context.root.at? path = some json) (hvalue : Value.ofJson? json = some value) :
      Reads context path value

theorem EvaluationContext.reads_iff {context : EvaluationContext} {path : FieldPath}
    {value : Value} : context.Reads path value ↔
      ∃ json, context.lookup? path = some json ∧ Value.ofJson? json = some value := by
  constructor
  · rintro (⟨hscope, hat, hvalue⟩ | ⟨hscope, hat, hvalue⟩)
    · exact ⟨_, by simp [lookup?, hscope, hat], hvalue⟩
    · refine ⟨_, ?_, hvalue⟩
      rw [lookup?, Option.bind_eq_none_iff.mpr hscope, Option.none_or, hat]
  · rintro ⟨json, hlookup, hvalue⟩
    rcases Option.or_eq_some_iff.mp hlookup with hscope | ⟨hscope, hroot⟩
    · obtain ⟨inner, hinner, hat⟩ := Option.bind_eq_some_iff.mp hscope
      exact .scope hinner hat hvalue
    · exact .root (Option.bind_eq_none_iff.mp hscope) hroot hvalue

/-- The left operand decides alone: a falsy one before `and`, a truthy one before `or`. -/
def Operator.Decides (op : Operator) (left : Value) : Prop :=
  (op = .and ∧ left.isTruthy = false) ∨ (op = .or ∧ left.isTruthy = true)

theorem Operator.shortCut_iff {op : Operator} {left : Value} :
    op.shortCut left.isTruthy = true ↔ op.Decides left := by
  cases op <;> simp [shortCut, Decides]

/-- What the left operand decides comes out whatever the right one is. -/
theorem Operator.Decides.gives {op : Operator} {left : Value} (h : op.Decides left)
    (right : Value) : op.Gives left right left.isTruthy := by
  rcases h with ⟨rfl, hfalsy⟩ | ⟨rfl, htruthy⟩
  · exact .and (by simp [hfalsy])
  · exact .or (by simp [htruthy])

namespace Trace

/-- A trace has the shape of an expression, each reference opened to the expression of its condition.
The right operand of an operator may be missing. -/
inductive Opens (registry : Registry) : Trace → Expression → Prop
  | literal (value : Value) : Opens registry (.literal value) (.literal value)
  | field (path : FieldPath) (value : Value) : Opens registry (.field path value) (.field path)
  | condition {name : String} {c : Condition} {body : Trace} {outcome : Bool}
      (hc : registry.get? name = some c) (h : body.Opens registry c.expression) :
      Opens registry (.condition name body outcome) (.condition name)
  | not {t : Trace} {e : Expression} {outcome : Bool} (h : t.Opens registry e) :
      Opens registry (.not t outcome) (.not e)
  | binary {op : Operator} {l r : Trace} {left right : Expression} {outcome : Bool}
      (hleft : l.Opens registry left) (hright : r.Opens registry right) :
      Opens registry (.binary op l r outcome) (.binary op left right)
  | skipping {op : Operator} {l : Trace} {left right : Expression} {outcome : Bool}
      (hleft : l.Opens registry left) :
      Opens registry (.binary op l .skipped outcome) (.binary op left right)

/-- All nodes of a trace. -/
def nodes : Trace → List Trace
  | .literal value => [.literal value]
  | .field path value => [.field path value]
  | .condition name body outcome => .condition name body outcome :: body.nodes
  | .not operand outcome => .not operand outcome :: operand.nodes
  | .binary op l r outcome => .binary op l r outcome :: (l.nodes ++ r.nodes)
  | .skipped => [.skipped]

/-- A node has the outcome that its parts account for, or that the context does. The right operand is
missing exactly where the left one decides. -/
def Honest (context : EvaluationContext) : Trace → Prop
  | .literal _ | .skipped => True
  | .field path value => context.Reads path value
  | .condition _ body outcome => outcome = body.outcome.isTruthy
  | .not operand outcome => outcome = !operand.outcome.isTruthy
  | .binary op l r outcome =>
    op.Gives l.outcome r.outcome outcome ∧ (r = .skipped ↔ op.Decides l.outcome)

/-- A trace accounts for the value of an expression. -/
structure Accounts (registry : Registry) (context : EvaluationContext) (e : Expression)
    (t : Trace) : Prop where
  opens : t.Opens registry e
  honest : ∀ node ∈ t.nodes, node.Honest context

end Trace

section

variable {registry : Registry} {context : EvaluationContext}

theorem Trace.Opens.ne_skipped {t : Trace} {e : Expression} (h : t.Opens registry e) :
    t ≠ .skipped := by
  cases h <;> exact Trace.noConfusion

/-- Every evaluation leaves a trace that accounts for it. -/
theorem Evaluates.accounts {e : Expression} {result : Except EvaluationError Trace}
    (h : Evaluates registry context e result) {t : Trace} (ht : result = .ok t) :
    t.Accounts registry context e := by
  induction h generalizing t with
  | missing _ | structured _ _ | unknown _ | bodyError _ _ _ | notError _ _ | leftError _ _
  | rightError _ _ _ _ _ | operatorError _ _ _ _ _ _ => exact nomatch ht
  | literal value =>
      cases ht
      exact ⟨.literal value, by simp [Trace.nodes, Trace.Honest]⟩
  | field hlookup hvalue =>
      cases ht
      refine ⟨.field _ _, List.forall_mem_singleton.mpr ?_⟩
      exact EvaluationContext.reads_iff.mpr ⟨_, hlookup, hvalue⟩
  | condition hc _ ih =>
      cases ht
      obtain ⟨hopens, hhonest⟩ := ih rfl
      exact ⟨.condition hc hopens, List.forall_mem_cons.mpr ⟨rfl, hhonest⟩⟩
  | not _ ih =>
      cases ht
      obtain ⟨hopens, hhonest⟩ := ih rfl
      exact ⟨.not hopens, List.forall_mem_cons.mpr ⟨rfl, hhonest⟩⟩
  | shortCut _ hcut ih =>
      cases ht
      obtain ⟨hopens, hhonest⟩ := ih rfl
      have hdecides := Operator.shortCut_iff.mp hcut
      refine ⟨.skipping hopens, List.forall_mem_cons.mpr ⟨⟨hdecides.gives _, ?_⟩, ?_⟩⟩
      · exact iff_of_true rfl hdecides
      · exact List.forall_mem_append.mpr ⟨hhonest, List.forall_mem_singleton.mpr trivial⟩
  | binary _ hcut _ happly ihl ihr =>
      cases ht
      obtain ⟨hleft, hhonestLeft⟩ := ihl rfl
      obtain ⟨hright, hhonestRight⟩ := ihr rfl
      refine ⟨.binary hleft hright, List.forall_mem_cons.mpr ⟨⟨?_, ?_⟩, ?_⟩⟩
      · exact Operator.apply_eq_ok_iff.mp happly
      · refine iff_of_false hright.ne_skipped fun hdecides => ?_
        exact Bool.false_ne_true (hcut.symm.trans (Operator.shortCut_iff.mpr hdecides))
      · exact List.forall_mem_append.mpr ⟨hhonestLeft, hhonestRight⟩

/-- An evaluation leaves every trace that accounts for it. -/
theorem Trace.Opens.evaluates {t : Trace} {e : Expression} (h : t.Opens registry e)
    (hhonest : ∀ node ∈ t.nodes, node.Honest context) : Evaluates registry context e (.ok t) := by
  induction h with
  | literal value => exact .literal value
  | field path value =>
      have hreads := List.forall_mem_singleton.mp hhonest
      obtain ⟨json, hlookup, hvalue⟩ := EvaluationContext.reads_iff.mp hreads
      exact .field hlookup hvalue
  | condition hc _ ih =>
      obtain ⟨rfl, hbody⟩ := List.forall_mem_cons.mp hhonest
      exact .condition hc (ih hbody)
  | not _ ih =>
      obtain ⟨rfl, hoperand⟩ := List.forall_mem_cons.mp hhonest
      exact .not (ih hoperand)
  | @binary op l r _ _ _ _ hright ihl ihr =>
      obtain ⟨⟨hgives, hskipped⟩, hrest⟩ := List.forall_mem_cons.mp hhonest
      obtain ⟨hhonestLeft, hhonestRight⟩ := List.forall_mem_append.mp hrest
      have hcut : op.shortCut l.outcome.isTruthy = false := by
        rw [← Bool.not_eq_true, Operator.shortCut_iff, ← hskipped]
        exact hright.ne_skipped
      exact .binary (ihl hhonestLeft) hcut (ihr hhonestRight) (Operator.apply_eq_ok_iff.mpr hgives)
  | @skipping op l _ _ outcome _ ih =>
      obtain ⟨⟨hgives, hskipped⟩, hrest⟩ := List.forall_mem_cons.mp hhonest
      have hdecides := hskipped.mp rfl
      -- An operator gives one outcome only.
      obtain rfl : outcome = l.outcome.isTruthy := Except.ok.inj <|
        (Operator.apply_eq_ok_iff.mpr hgives).symm.trans
          (Operator.apply_eq_ok_iff.mpr (hdecides.gives _))
      exact .shortCut (ih (List.forall_mem_append.mp hrest).1) (Operator.shortCut_iff.mpr hdecides)

end

namespace Compiled

/-- Evaluation leaves a trace exactly when it accounts for the expression's value. -/
theorem accounts_iff {registry : Registry} (h : Compiled registry) {context : EvaluationContext}
    {e : Expression} {t : Trace} :
    registry.trace e context = .ok t ↔ t.Accounts registry context e := by
  rw [eq_comm, ← h.evaluates_iff]
  exact ⟨fun heval => heval.accounts rfl, fun haccounts => haccounts.opens.evaluates haccounts.honest⟩

end Compiled

namespace Registry

/-- Evaluation leaves honest traces, and none but these. What it leaves has the shape of the
expression, with each reference opened to its condition; every node in it, those inside opened
references included, has the outcome that its parts or the context account for; and the right operand
of an operator is missing exactly where the left one decides. Whatever is such a trace is the one that
evaluation leaves. -/
theorem trace_eq_ok_iff {definitions : List ConditionDefinition} {registry : Registry}
    (h : compile definitions = .ok registry) (e : Expression) (context : EvaluationContext)
    (t : Trace) :
    registry.trace e context = .ok t ↔
      t.Opens registry e ∧ ∀ node ∈ t.nodes, node.Honest context :=
  (compiled_of_compile h).accounts_iff.trans
    ⟨fun haccounts => ⟨haccounts.opens, haccounts.honest⟩, fun ⟨hopens, hhonest⟩ => ⟨hopens, hhonest⟩⟩

/-- The section's name counts, not the one given elsewhere; being single is opened down to the status;
and whether there are children does not matter any more. -/
theorem trace_eq_ok_iff_single :
    ∃ e, statusRegistry.parse "single and name < 'm' or children" "page" = .ok e ∧
      let context : EvaluationContext :=
        ⟨some [("name", .str "ada")], [("name", .str "zoe"), ("status", .str "widowed")]⟩
      let married : Trace :=
        .binary .equal (.field ⟨"status", []⟩ (.text "widowed")) (.literal (.text "married")) false
      let single : Trace := .condition "single" (.not (.condition "married" married false) true) true
      let early : Trace :=
        .binary .less (.field ⟨"name", []⟩ (.text "ada")) (.literal (.text "m")) true
      let t : Trace := .binary .or (.binary .and single early true) .skipped true
      t.Opens statusRegistry e ∧ ∀ node ∈ t.nodes, node.Honest context := by
  refine ⟨.binary .or (.binary .and (.condition "single")
    (.binary .less (.field ⟨"name", []⟩) (.literal (.text "m")))) (.field ⟨"children", []⟩),
    by with_unfolding_all rfl, ?_⟩
  exact (trace_eq_ok_iff compile_statusRules _ _ _).mp (by with_unfolding_all rfl)

end Registry

end Questionnaire
