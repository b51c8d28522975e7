import Questionnaire.Condition.Evaluation
import Questionnaire.Proofs.Condition.Declared
import Questionnaire.Proofs.Condition.Order
import Questionnaire.Proofs.Expression.Nesting

/-!
# Evaluation ends

Evaluation as a relation that follows each reference to the condition that is registered under its
name (`Evaluates`). What a registry evaluates by going along its order of dependence is exactly what
the relation gives (`Compiled.evaluates_iff`): along each reference the rank falls, so the relation
has a derivation for every expression.
-/

namespace Questionnaire

/-! ## Following references by name -/

/-- How an expression is evaluated, references being looked up in the registry. -/
inductive Evaluates (registry : Registry) (context : EvaluationContext) :
    Expression → Except EvaluationError Trace → Prop
  | literal (value : Value) : Evaluates registry context (.literal value) (.ok (.literal value))
  | missing {path : FieldPath} (h : context.lookup? path = none) :
      Evaluates registry context (.field path) (.error (.missingField path))
  | structured {path : FieldPath} {json : Json} (h : context.lookup? path = some json)
      (hvalue : Value.ofJson? json = none) :
      Evaluates registry context (.field path) (.error (.structuredField path))
  | field {path : FieldPath} {json : Json} {value : Value}
      (h : context.lookup? path = some json) (hvalue : Value.ofJson? json = some value) :
      Evaluates registry context (.field path) (.ok (.field path value))
  | unknown {name : String} (h : registry.get? name = none) :
      Evaluates registry context (.condition name) (.error (.unknownCondition name))
  | bodyError {name : String} {c : Condition} {error : EvaluationError}
      (h : registry.get? name = some c)
      (hbody : Evaluates registry context c.expression (.error error)) :
      Evaluates registry context (.condition name) (.error error)
  | condition {name : String} {c : Condition} {body : Trace} (h : registry.get? name = some c)
      (hbody : Evaluates registry context c.expression (.ok body)) :
      Evaluates registry context (.condition name)
        (.ok (.condition name body body.outcome.isTruthy))
  | notError {operand : Expression} {error : EvaluationError}
      (h : Evaluates registry context operand (.error error)) :
      Evaluates registry context (.not operand) (.error error)
  | not {operand : Expression} {t : Trace} (h : Evaluates registry context operand (.ok t)) :
      Evaluates registry context (.not operand) (.ok (.not t (!t.outcome.isTruthy)))
  | leftError {op : Operator} {left right : Expression} {error : EvaluationError}
      (h : Evaluates registry context left (.error error)) :
      Evaluates registry context (.binary op left right) (.error error)
  | shortCut {op : Operator} {left right : Expression} {l : Trace}
      (h : Evaluates registry context left (.ok l))
      (hcut : op.shortCut l.outcome.isTruthy = true) :
      Evaluates registry context (.binary op left right)
        (.ok (.binary op l .skipped l.outcome.isTruthy))
  | rightError {op : Operator} {left right : Expression} {l : Trace} {error : EvaluationError}
      (hleft : Evaluates registry context left (.ok l))
      (hcut : op.shortCut l.outcome.isTruthy = false)
      (hright : Evaluates registry context right (.error error)) :
      Evaluates registry context (.binary op left right) (.error error)
  | operatorError {op : Operator} {left right : Expression} {l r : Trace} {error : EvaluationError}
      (hleft : Evaluates registry context left (.ok l))
      (hcut : op.shortCut l.outcome.isTruthy = false)
      (hright : Evaluates registry context right (.ok r))
      (happly : op.apply l.outcome r.outcome = .error error) :
      Evaluates registry context (.binary op left right) (.error error)
  | binary {op : Operator} {left right : Expression} {l r : Trace} {outcome : Bool}
      (hleft : Evaluates registry context left (.ok l))
      (hcut : op.shortCut l.outcome.isTruthy = false)
      (hright : Evaluates registry context right (.ok r))
      (happly : op.apply l.outcome r.outcome = .ok outcome) :
      Evaluates registry context (.binary op left right) (.ok (.binary op l r outcome))

section

variable {registry : Registry} {context : EvaluationContext}

/-- Answers to references that follow the registry. -/
def Follows (registry : Registry) (context : EvaluationContext)
    (resolve : String → Except EvaluationError Trace) : Prop :=
  ∀ name, resolve name =
    match registry.get? name with
    | none => .error (.unknownCondition name)
    | some c => c.expression.trace context resolve

/-- Answers that the registered conditions have on their own are those with which an expression is
evaluated. -/
theorem evaluates_trace {resolve : String → Except EvaluationError Trace}
    (hresolve : Follows registry context resolve) {e : Expression}
    (h : ∀ name ∈ e.conditions, ∀ c, registry.get? name = some c →
      Evaluates registry context c.expression (resolve name)) :
    Evaluates registry context e (e.trace context resolve) := by
  induction e with
  | literal value => exact .literal value
  | field path =>
      rw [Expression.trace]
      split
      · next hlookup => exact .missing hlookup
      · next json hlookup =>
        split
        · next hvalue => exact .structured hlookup hvalue
        · next value hvalue => exact .field hlookup hvalue
  | condition name =>
      cases hc : registry.get? name with
      | none =>
          have hunknown := hresolve name
          simp only [hc] at hunknown
          simpa only [Expression.trace, hunknown] using .unknown hc
      | some c =>
          have hbody := h name (List.mem_singleton_self name) c hc
          rw [Expression.trace]
          split
          · next error herror => exact .bodyError hc (herror ▸ hbody)
          · next body hok => exact .condition hc (hok ▸ hbody)
  | not operand ih =>
      have hoperand := ih h
      rw [Expression.trace]
      split
      · next error herror => exact .notError (herror ▸ hoperand)
      · next t hok => exact .not (hok ▸ hoperand)
  | binary op left right ihl ihr =>
      have hleft := ihl fun name hname => h name (List.mem_append_left _ hname)
      have hright := ihr fun name hname => h name (List.mem_append_right _ hname)
      rw [Expression.trace]
      split
      · next error herror => exact .leftError (herror ▸ hleft)
      · next l hl =>
        rw [hl] at hleft
        split
        · next hcut => exact .shortCut hleft hcut
        · next hcut =>
          rw [Bool.not_eq_true] at hcut
          split
          · next error herror => exact .rightError hleft hcut (herror ▸ hright)
          · next r hr =>
            rw [hr] at hright
            split
            · next error happly => exact .operatorError hleft hcut hright happly
            · next outcome happly => exact .binary hleft hcut hright happly

/-- There is no result but the one that answers following the registry give. -/
theorem Evaluates.eq_trace {resolve : String → Except EvaluationError Trace}
    (hresolve : Follows registry context resolve) {e : Expression}
    {r : Except EvaluationError Trace} (h : Evaluates registry context e r) :
    r = e.trace context resolve := by
  induction h with
  | literal value => rfl
  | missing h => simp [Expression.trace, h]
  | structured h hvalue => simp [Expression.trace, h, hvalue]
  | field h hvalue => simp [Expression.trace, h, hvalue]
  | unknown h => simp [Expression.trace, hresolve _, h]
  | bodyError h _ ih => simp [Expression.trace, hresolve _, h, ← ih]
  | condition h _ ih => simp [Expression.trace, hresolve _, h, ← ih]
  | notError _ ih => simp [Expression.trace, ← ih]
  | not _ ih => simp [Expression.trace, ← ih]
  | leftError _ ih => simp [Expression.trace, ← ih]
  | shortCut _ hcut ih => simp [Expression.trace, ← ih, hcut]
  | rightError _ hcut _ ihl ihr => simp [Expression.trace, ← ihl, ← ihr, hcut]
  | operatorError _ hcut _ happly ihl ihr => simp [Expression.trace, ← ihl, ← ihr, hcut, happly]
  | binary _ hcut _ happly ihl ihr => simp [Expression.trace, ← ihl, ← ihr, hcut, happly]

theorem order_ne_unknown (op : Operator) (left right : Value) (name : String) :
    op.order left right ≠ .error (.unknownCondition name) := by
  cases left <;> cases right <;> simp [Operator.order]

theorem apply_ne_unknown (op : Operator) (left right : Value) (name : String) :
    op.apply left right ≠ .error (.unknownCondition name) := by
  cases op <;> simp only [Operator.apply, ne_eq, reduceCtorEq, not_false_eq_true]
  -- Membership may fail on its own; the other operators fail only where they compare sizes.
  case member => split <;> simp
  all_goals exact order_ne_unknown _ left right name

end

/-! ## Compiled conditions -/

/-- What compiling makes sure of: an order of dependence of all conditions, each of which refers to
conditions that there are. -/
structure Compiled (registry : Registry) : Prop where
  dependence : Dependence Condition.references registry.conditions registry.ordered
  ordered : ∀ name, Registered registry.conditions name → Registered registry.ordered name
  declared : ∀ name c, registry.get? name = some c →
    ∀ reference ∈ c.references, Registered registry.conditions reference

theorem Registry.registered_of_parseAll {known : List String}
    {definitions : List ConditionDefinition} {conditions : List Condition}
    (h : parseAll known [] definitions = .ok conditions) {name : String}
    (hname : (lastDeclaration? definitions name).isSome) : Registered conditions name := by
  rcases findCondition?_parseAll h name with ⟨hnone, -⟩ | ⟨_, _, -, -, hfind⟩
  · rw [hnone] at hname
    exact nomatch hname
  · simp [Registered, hfind]

theorem Dependence.of_subset {references references' : Condition → List String}
    {conditions ordered : List Condition} (h : Dependence references conditions ordered)
    (hsubset : ∀ c, references' c ⊆ references c) : Dependence references' conditions ordered := by
  induction h with
  | nil => exact .nil
  | cons hc hnew hreferences _ ih =>
      exact .cons hc hnew (fun name hname => hreferences name (hsubset _ hname)) ih

/-- Compiled conditions are in an order of dependence, in whatever order the references of each
expression have been visited. -/
theorem Registry.compiled_of_compileVisiting {references : Condition → List String}
    (hreferences : ∀ c name, name ∈ references c ↔ name ∈ c.references)
    {definitions : List ConditionDefinition} {registry : Registry}
    (h : Registry.compileVisiting references definitions = .ok registry) : Compiled registry := by
  have hconditions := parseAll_of_compileVisiting h
  obtain ⟨hdependence, hall⟩ := visitEach_all_ok (visitEach_of_compileVisiting h)
  refine ⟨hdependence.of_subset fun c name => (hreferences c name).mpr, hall,
    fun name c hc reference hreference => ?_⟩
  rcases findCondition?_parseAll hconditions name with ⟨-, hnone⟩ | ⟨d, _, -, hdeclares, hfind⟩
  · cases hnone.symm.trans hc
  · cases hfind.symm.trans hc
    -- The parser reads a name as a reference only if a definition declares it.
    have hknown := (resolved_of_parse hdeclares.2.2).known reference hreference
    exact registered_of_parseAll hconditions (lastDeclaration?_isSome.mpr hknown)

theorem Registry.compiled_of_compile {definitions : List ConditionDefinition} {registry : Registry}
    (h : Registry.compile definitions = .ok registry) : Compiled registry :=
  compiled_of_compileVisiting (fun _ _ => Iff.rfl) h

/-- The trace of an expression depends on what is found for its fields, and on the answers to its
references. -/
theorem trace_congr_of_lookup {context context' : EvaluationContext}
    {resolve resolve' : String → Except EvaluationError Trace} {e : Expression}
    (hfields : ∀ path ∈ e.fields, context.lookup? path = context'.lookup? path)
    (h : ∀ name ∈ e.conditions, resolve name = resolve' name) :
    e.trace context resolve = e.trace context' resolve' := by
  induction e with
  | literal _ => rfl
  | field path => simp only [Expression.trace, hfields path (List.mem_singleton_self path)]
  | condition name => simp only [Expression.trace, h name (List.mem_singleton_self name)]
  | not operand ih => simp only [Expression.trace, ih hfields h]
  | binary op left right ihl ihr =>
      simp only [Expression.fields, Expression.conditions, List.forall_mem_append] at hfields h
      simp only [Expression.trace, ihl hfields.1 h.1, ihr hfields.2 h.2]

theorem trace_congr {context : EvaluationContext}
    {resolve resolve' : String → Except EvaluationError Trace} {e : Expression}
    (h : ∀ name ∈ e.conditions, resolve name = resolve' name) :
    e.trace context resolve = e.trace context resolve' :=
  trace_congr_of_lookup (fun _ _ => rfl) h

/-- Conditions in an order of dependence are those that there are. -/
theorem Dependence.findCondition?_eq {references : Condition → List String}
    {conditions ordered : List Condition} (h : Dependence references conditions ordered)
    {name : String} (hname : Registered ordered name) :
    findCondition? ordered name = findCondition? conditions name := by
  induction h with
  | nil => exact nomatch hname
  | cons hc _ _ _ ih =>
      rw [findCondition?_cons]
      split
      · next heq => rw [← heq, hc]
      · next hne => exact ih ((registered_cons.mp hname).resolve_left fun heq => hne heq.symm)

/-- Going along an order of dependence, a condition is evaluated with the answers of the whole
order: the conditions in front of those that it refers to make no difference. -/
theorem Dependence.resolve_eq {conditions ordered : List Condition}
    (h : Dependence Condition.references conditions ordered)
    (hdeclared : ∀ name c, findCondition? conditions name = some c →
      ∀ reference ∈ c.references, Registered conditions reference)
    (context : EvaluationContext) (name : String) :
    Registry.resolve context ordered name =
      match findCondition? ordered name with
      | none => .error (.unknownCondition name)
      | some c => c.expression.trace context (Registry.resolve context ordered) := by
  induction h with
  | nil => rfl
  | @cons c rest hc hnew hreferences hrest ih =>
      -- The answers of the conditions further on are the same with and without the one in front.
      have hlater {other : String} (hother : Registered rest other) :
          Registry.resolve context rest other = Registry.resolve context (c :: rest) other := by
        rw [Registry.resolve, if_neg]
        rintro rfl
        exact hnew hother
      rw [findCondition?_cons, Registry.resolve]
      by_cases heq : c.name = name
      · rw [if_pos heq.symm, if_pos heq]
        exact trace_congr fun reference hreference =>
          hlater (hreferences reference hreference (hdeclared _ c hc reference hreference))
      · rw [if_neg (Ne.symm heq), if_neg heq, ih]
        cases hfound : findCondition? rest name with
        | none => rfl
        | some found =>
            have hregistered : Registered rest name := by simp [Registered, hfound]
            have hfind := hrest.findCondition?_eq hregistered
            rw [hfound] at hfind
            -- What a condition further on refers to is further on as well.
            refine trace_congr fun reference hreference => hlater ?_
            exact hrest.registered hregistered ⟨found, hfind.symm, hreference⟩
              (hdeclared name found hfind.symm reference hreference)

namespace Compiled

variable {registry : Registry}

theorem follows (h : Compiled registry) (context : EvaluationContext) :
    Follows registry context (Registry.resolve context registry.ordered) := by
  intro name
  rw [h.dependence.resolve_eq h.declared context name]
  by_cases hname : Registered registry.ordered name
  · rw [h.dependence.findCondition?_eq hname]
    rfl
  · have hnone : registry.get? name = none :=
      Option.not_isSome_iff_eq_none.mp fun hsome => hname (h.ordered name hsome)
    rw [hnone, Option.not_isSome_iff_eq_none.mp hname]

/-- Along a reference the rank falls. -/
theorem rank_lt (h : Compiled registry) {name : String} {c : Condition}
    (hc : registry.get? name = some c) {reference : String} (hreference : reference ∈ c.references) :
    rank registry.ordered reference < rank registry.ordered name := by
  have hname : Registered registry.conditions name := by
    have : findCondition? registry.conditions name = some c := hc
    simp [Registered, this]
  exact h.dependence.rank_lt (h.ordered name hname) ⟨c, hc, hreference⟩
    (h.declared name c hc reference hreference)

/-- A registered condition is evaluated in finitely many steps: by induction on its rank, all that
it refers to are. -/
theorem evaluates_condition (h : Compiled registry) (context : EvaluationContext) {bound : Nat} :
    ∀ {name : String}, rank registry.ordered name < bound → ∀ c, registry.get? name = some c →
      Evaluates registry context c.expression (Registry.resolve context registry.ordered name) := by
  induction bound with
  | zero => exact fun hrank => absurd hrank (Nat.not_lt_zero _)
  | succ bound ih =>
      intro name hrank c hc
      rw [h.follows context name, hc]
      -- The references of `c` rank below it, so the induction hypothesis answers them.
      exact evaluates_trace (h.follows context) fun reference hreference =>
        ih (Nat.lt_of_lt_of_le (h.rank_lt hc hreference) (Nat.le_of_lt_succ hrank))

/-- Every expression has exactly one result. -/
theorem evaluates_iff (h : Compiled registry) (context : EvaluationContext) (e : Expression)
    (r : Except EvaluationError Trace) :
    Evaluates registry context e r ↔ r = registry.trace e context := by
  constructor
  · exact fun hevaluates => hevaluates.eq_trace (h.follows context)
  · rintro rfl
    exact evaluates_trace (h.follows context) fun name _ =>
      h.evaluates_condition context (Nat.lt_succ_self _)

/-- No reference that is met is unknown. -/
theorem ne_unknown (h : Compiled registry) {context : EvaluationContext} {e : Expression}
    {r : Except EvaluationError Trace} (hevaluates : Evaluates registry context e r)
    (hclosed : ∀ name ∈ e.conditions, Registered registry.conditions name) (name : String) :
    r ≠ .error (.unknownCondition name) := by
  induction hevaluates with
  | literal _ => rintro ⟨⟩
  | missing _ => rintro ⟨⟩
  | structured _ _ => rintro ⟨⟩
  | field _ _ => rintro ⟨⟩
  | unknown hnone =>
      have hregistered := hclosed _ (List.mem_singleton_self _)
      have hnone : findCondition? registry.conditions _ = none := hnone
      simp [Registered, hnone] at hregistered
  | bodyError hc _ ih => exact ih (h.declared _ _ hc)
  | condition _ _ _ => rintro ⟨⟩
  | notError _ ih => exact ih hclosed
  | not _ _ => rintro ⟨⟩
  | leftError _ ih => exact ih fun name hname => hclosed name (List.mem_append_left _ hname)
  | shortCut _ _ _ => rintro ⟨⟩
  | rightError _ _ _ _ ih => exact ih fun name hname => hclosed name (List.mem_append_right _ hname)
  | operatorError _ _ _ happly _ _ =>
      rintro ⟨⟩
      exact apply_ne_unknown _ _ _ _ happly
  | binary _ _ _ _ _ _ => rintro ⟨⟩

end Compiled

namespace Registry

/-- The expressions that a registry evaluates: those of its conditions, and those parsed on it. -/
def Admits (registry : Registry) (e : Expression) : Prop :=
  (∃ name c, registry.get? name = some c ∧ c.expression = e) ∨
    ∃ source referrer, registry.parse source referrer = .ok e

theorem Admits.closed {registry : Registry} (hcompiled : Compiled registry) {e : Expression}
    (h : registry.Admits e) : ∀ name ∈ e.conditions, Registered registry.conditions name := by
  rcases h with ⟨name, c, hc, rfl⟩ | ⟨source, referrer, h⟩
  · exact hcompiled.declared name c hc
  · rw [parse] at h
    split at h
    · exact nomatch h
    · next hparse =>
      cases h
      intro name hname
      exact registered_iff.mpr ((resolved_of_parse hparse).known name hname)

/-- Evaluation on compiled conditions ends. There is a rank of names that falls along every reference
between conditions; every expression of the registry has exactly one result by following references
to the conditions registered, whatever the context; and that result is never an unknown condition. -/
theorem evaluation_ends {definitions : List ConditionDefinition} {registry : Registry}
    (h : compile definitions = .ok registry) :
    ∃ rank : String → Nat,
      (∀ name c, registry.get? name = some c →
        ∀ reference ∈ c.references, rank reference < rank name) ∧
      ∀ e, registry.Admits e → ∀ context,
        (∀ r, Evaluates registry context e r ↔ r = registry.trace e context) ∧
        ∀ name, registry.trace e context ≠ .error (.unknownCondition name) := by
  have hcompiled := compiled_of_compile h
  refine ⟨rank registry.ordered, fun name c hc reference => hcompiled.rank_lt hc, ?_⟩
  intro e he context
  have hclosed := he.closed hcompiled
  have hevaluates := hcompiled.evaluates_iff context e
  exact ⟨hevaluates, hcompiled.ne_unknown ((hevaluates _).mpr rfl) hclosed⟩

/-- Rules about a visit. Two of them refer to the last one, which is declared twice. -/
def visiting : List ConditionDefinition :=
  [⟨"visits", "@guest or @member"⟩, ⟨"known", "invited"⟩, ⟨"guest", "@known and invited"⟩,
    ⟨"member", "@known and not @guest"⟩, ⟨"known", "name != ''"⟩]

/-- The rules about a visit, each before those that it refers to. -/
def visitingInOrder : List Condition :=
  [⟨"visits", "@guest or @member", .binary .or (.condition "guest") (.condition "member")⟩,
    ⟨"member", "@known and not @guest",
      .binary .and (.condition "known") (.not (.condition "guest"))⟩,
    ⟨"guest", "@known and invited",
      .binary .and (.condition "known") (.field ⟨"invited", []⟩)⟩,
    ⟨"known", "name != ''",
      .binary .notEqual (.field ⟨"name", []⟩) (.literal (.text ""))⟩]

theorem evaluation_ends_visiting :
    ∃ registry, compile visiting = .ok registry ∧ registry.ordered = visitingInOrder ∧
      (∃ rank : String → Nat, rank "known" < rank "guest" ∧ rank "guest" < rank "visits") ∧
      (∃ e, registry.parse "not @visits" "page" = .ok e ∧
        ∀ name, registry.trace e ⟨none, []⟩ ≠ .error (.unknownCondition name)) := by
  have hcompile : compile visiting = .ok
      ⟨[visitingInOrder[0], visitingInOrder[3], visitingInOrder[2], visitingInOrder[1]],
        visitingInOrder⟩ := by with_unfolding_all rfl
  obtain ⟨rank, hrank, hends⟩ := evaluation_ends hcompile
  refine ⟨_, hcompile, rfl, ⟨rank, ?_, ?_⟩, .not (.condition "visits"), ?_, ?_⟩
  · exact hrank "guest" visitingInOrder[2] (by with_unfolding_all rfl) "known" (.head _)
  · exact hrank "visits" visitingInOrder[0] (by with_unfolding_all rfl) "guest" (.head _)
  · with_unfolding_all rfl
  · exact (hends _ (.inr ⟨"not @visits", "page", by with_unfolding_all rfl⟩) ⟨none, []⟩).2

end Registry

end Questionnaire
