import Mathlib.Data.List.Nodup
import Questionnaire.Proofs.Condition.Circles
import Questionnaire.Proofs.Condition.Reading

/-!
# Definitions in another order

What is compiled depends on the last definition of each name alone: on it depend the text that is read
(`parse_congr`), the circles of references (`SameDeclarations.onCircle_iff`) and the condition that a
name has (`SameDeclarations.findCondition?_eq`). The order of the definitions shows only in the order of
the conditions, which is that of the first definitions of their names (`names_parseAll`).
-/

namespace Questionnaire

/-! ## Reading with the same names -/

theorem Expression.resolve_congr {known known' : List String}
    (h : ∀ name, name ∈ known ↔ name ∈ known') (e : Expression) :
    e.resolve known = e.resolve known' := by
  induction e with
  | literal _ => rfl
  | field path => simp only [resolve, h]
  | condition _ => rfl
  | not operand ih => simp only [resolve, ih]
  | binary op left right ihl ihr => simp only [resolve, ihl, ihr]

/-- Of the names of the conditions it does not matter in which order they are known, or how often. -/
theorem parse_congr {known known' : List String} (h : ∀ name, name ∈ known ↔ name ∈ known')
    {source : String} {e : Expression} :
    Expression.parse known source = .ok e ↔ Expression.parse known' source = .ok e := by
  simp only [parse_iff_lexes, h, Expression.resolve_congr h]

/-! ## The same last definitions -/

/-- Each name has the same last definition in both lists, or none in either. -/
def SameDeclarations (definitions definitions' : List ConditionDefinition) : Prop :=
  ∀ name, lastDeclaration? definitions name = lastDeclaration? definitions' name

namespace SameDeclarations

variable {definitions definitions' : List ConditionDefinition}
  (h : SameDeclarations definitions definitions')

include h

theorem mem_names_iff (name : String) :
    name ∈ definitions.map ConditionDefinition.name ↔
      name ∈ definitions'.map ConditionDefinition.name := by
  rw [← lastDeclaration?_isSome, ← lastDeclaration?_isSome, h name]

theorem onCircle_iff (name : String) : OnCircle definitions name ↔ OnCircle definitions' name := by
  have hrelation : Refers definitions = Refers definitions' := by
    funext a b
    simp only [Refers, h a, parse_congr h.mem_names_iff]
  rw [OnCircle, OnCircle, hrelation]

/-- The definitions of both lists declare the same condition for each name. -/
theorem findCondition?_eq {conditions conditions' : List Condition}
    (hparse : Registry.parseAll (definitions.map ConditionDefinition.name) [] definitions =
      .ok conditions)
    (hparse' : Registry.parseAll (definitions'.map ConditionDefinition.name) [] definitions' =
      .ok conditions') (name : String) :
    findCondition? conditions name = findCondition? conditions' name := by
  have hlast := h name
  rcases Registry.findCondition?_parseAll hparse name with
    ⟨hnone, hfind⟩ | ⟨d, ⟨_, _, _⟩, hsome, ⟨rfl, rfl, hd⟩, hfind⟩ <;>
  rcases Registry.findCondition?_parseAll hparse' name with
    ⟨hnone', hfind'⟩ | ⟨d', ⟨_, _, _⟩, hsome', ⟨rfl, rfl, hd'⟩, hfind'⟩
  · exact hfind.trans hfind'.symm
  · cases hnone.symm.trans (hlast.trans hsome')
  · cases hsome.symm.trans (hlast.trans hnone')
  · cases hsome.symm.trans (hlast.trans hsome')
    -- One definition, read with the same names: the expressions are the same, too.
    cases hd.symm.trans ((parse_congr h.mem_names_iff).mpr hd')
    exact hfind.trans hfind'.symm

end SameDeclarations

/-! ## The order of the conditions -/

theorem names_declare (c : Condition) (conditions : List Condition) :
    (declare c conditions).map Condition.name =
      if c.name ∈ conditions.map Condition.name then conditions.map Condition.name
      else conditions.map Condition.name ++ [c.name] := by
  induction conditions with
  | nil => rfl
  | cons other rest ih =>
      rw [declare]
      by_cases hsame : other.name = c.name
      · simp [hsame]
      · rw [if_neg hsame, List.map_cons, List.map_cons, ih]
        by_cases hmem : c.name ∈ rest.map Condition.name <;> simp [hmem, Ne.symm hsame]

namespace Registry

variable {known : List String} {definitions : List ConditionDefinition}
  {conditions result : List Condition}

/-- The conditions stand in the order in which their names were first defined. -/
theorem names_parseAll (h : parseAll known conditions definitions = .ok result) :
    result.map Condition.name = conditions.map Condition.name ++
      ((definitions.map ConditionDefinition.name).removeAll
        (conditions.map Condition.name)).eraseDups := by
  induction definitions generalizing conditions with
  | nil =>
      cases h
      simp [List.removeAll]
  | cons d rest ih =>
      rw [parseAll] at h
      split at h
      · cases h
      · rw [ih h, names_declare]
        by_cases hmem : d.name ∈ conditions.map Condition.name
        · rw [if_pos hmem, List.map_cons, List.cons_removeAll, if_neg (by simpa using hmem)]
        · have hlater : (rest.map ConditionDefinition.name).removeAll
                (conditions.map Condition.name ++ [d.name]) =
              ((rest.map ConditionDefinition.name).removeAll (conditions.map Condition.name)).filter
                fun name => !name == d.name := by
            simp only [List.removeAll, List.filter_filter]
            exact List.filter_congr fun name _ => by simp [Bool.beq_eq_decide_eq, Bool.and_comm]
          rw [if_neg hmem, List.map_cons, List.cons_removeAll, if_pos (by simpa using hmem),
            List.eraseDups_cons, List.append_assoc, List.singleton_append, hlater]

theorem nodup_names_parseAll (h : parseAll known conditions definitions = .ok result)
    (hnodup : (conditions.map Condition.name).Nodup) : (result.map Condition.name).Nodup := by
  induction definitions generalizing conditions with
  | nil =>
      cases h
      exact hnodup
  | cons d rest ih =>
      rw [parseAll] at h
      split at h
      · cases h
      · refine ih h ?_
        rw [names_declare]
        split
        · exact hnodup
        · next hnew => simpa using hnodup.concat hnew

/-! ## Compiling -/

section

variable {references : Condition → List String}
  (hreferences : ∀ c name, name ∈ references c ↔ name ∈ c.references)

include hreferences

/-- Definitions that all parse are compiled, or lead in a circle. -/
theorem compileVisiting_cases
    (hparse : ∀ d ∈ definitions, ∃ e,
      Expression.parse (definitions.map ConditionDefinition.name) d.value = .ok e) :
    (∃ registry, compileVisiting references definitions = .ok registry ∧
        ∀ name, ¬ OnCircle definitions name) ∨
      ∃ name, compileVisiting references definitions = .error (.circularCondition name) ∧
        OnCircle definitions name := by
  obtain ⟨conditions, hconditions⟩ := exists_parseAll hparse []
  have hcircle := leadsTo_iff hreferences hconditions
  simp only [compileVisiting, hconditions, ofConditions]
  cases hsearch : visitEach (visit references conditions []) []
      (conditions.map Condition.name) with
  | error name => exact .inr ⟨name, rfl, (hcircle name).mp (visitEach_all_error hsearch)⟩
  | ok ordered =>
      obtain ⟨hdependence, hall⟩ := visitEach_all_ok hsearch
      exact .inl ⟨_, rfl, fun name h => hdependence.not_circular hall name ((hcircle name).mpr h)⟩

theorem evaluate_eq_of_sameDeclarations {references' : Condition → List String}
    (hreferences' : ∀ c name, name ∈ references' c ↔ name ∈ c.references)
    {definitions' : List ConditionDefinition} (hsame : SameDeclarations definitions definitions')
    {registry registry' : Registry} (h : compileVisiting references definitions = .ok registry)
    (h' : compileVisiting references' definitions' = .ok registry') (name : String)
    (context : EvaluationContext) :
    registry.evaluate name context = registry'.evaluate name context := by
  have hget : ∀ name, registry.get? name = registry'.get? name :=
    hsame.findCondition?_eq (parseAll_of_compileVisiting h) (parseAll_of_compileVisiting h')
  have htrace (e : Expression) : registry.trace e context = registry'.trace e context :=
    (compiled_of_compileVisiting hreferences h).trace_eq
      (compiled_of_compileVisiting hreferences' h') hget fun _ _ => rfl
  rw [evaluate, evaluate, hget name]
  cases registry'.get? name with
  | none => rfl
  | some c => simp only [holds, htrace]

end

/-- The order in which conditions are defined does not matter, nor how often, as long as each name has
the same last definition. Two such lists, all of whose expressions can be read, are both compiled or
both refused for a circle; compiled, their conditions hold alike, whatever the name and the context. The
conditions are listed once each, in the order of the first definitions of their names. All this holds in
whatever order the references of an expression are visited. -/
theorem compile_of_sameDeclarations {references references' : Condition → List String}
    (hreferences : ∀ c name, name ∈ references c ↔ name ∈ c.references)
    (hreferences' : ∀ c name, name ∈ references' c ↔ name ∈ c.references)
    {definitions definitions' : List ConditionDefinition}
    (hsame : SameDeclarations definitions definitions')
    (hparse : ∀ d ∈ definitions, ∃ e,
      Expression.parse (definitions.map ConditionDefinition.name) d.value = .ok e)
    (hparse' : ∀ d ∈ definitions', ∃ e,
      Expression.parse (definitions'.map ConditionDefinition.name) d.value = .ok e) :
    ((∃ registry registry', compileVisiting references definitions = .ok registry ∧
        compileVisiting references' definitions' = .ok registry' ∧
        ∀ name context, registry.evaluate name context = registry'.evaluate name context) ∨
      ∃ name name', compileVisiting references definitions = .error (.circularCondition name) ∧
        compileVisiting references' definitions' = .error (.circularCondition name')) ∧
    ∀ registry, compileVisiting references definitions = .ok registry →
      registry.names.Nodup ∧
        registry.names = (definitions.map ConditionDefinition.name).eraseDups := by
  refine ⟨?_, fun registry h => ?_⟩
  · rcases compileVisiting_cases hreferences hparse with ⟨registry, h, hnone⟩ | ⟨name, h, hcircle⟩ <;>
    rcases compileVisiting_cases hreferences' hparse' with
      ⟨registry', h', hnone'⟩ | ⟨name', h', hcircle'⟩
    · exact .inl ⟨registry, registry', h, h',
        evaluate_eq_of_sameDeclarations hreferences hreferences' hsame h h'⟩
    · exact absurd ((hsame.onCircle_iff name').mpr hcircle') (hnone name')
    · exact absurd ((hsame.onCircle_iff name).mp hcircle) (hnone' name)
    · exact .inr ⟨name, name', h, h'⟩
  · have hall := parseAll_of_compileVisiting h
    refine ⟨nodup_names_parseAll hall List.nodup_nil, ?_⟩
    rw [names, names_parseAll hall]
    simp

/-- The rules about a visit the other way round. Here it is the rule about guests that is given twice,
and the first time it leads in a circle. -/
def visitingBackwards : List ConditionDefinition :=
  [⟨"known", "name != ''"⟩, ⟨"guest", "@visits"⟩, ⟨"member", "@known and not @guest"⟩,
    ⟨"guest", "@known and invited"⟩, ⟨"visits", "@guest or @member"⟩]

theorem sameDeclarations_visiting : SameDeclarations visiting visitingBackwards := by
  intro name
  by_cases hname : name = "visits" ∨ name = "known" ∨ name = "guest" ∨ name = "member"
  · rcases hname with rfl | rfl | rfl | rfl <;> decide +kernel
  · -- A name that no definition has is declared by neither list.
    simp only [not_or] at hname
    rw [Option.not_isSome_iff_eq_none.mp (mt lastDeclaration?_isSome.mp (by simp [visiting, hname])),
      Option.not_isSome_iff_eq_none.mp
        (mt lastDeclaration?_isSome.mp (by simp [visitingBackwards, hname]))]

theorem compile_of_sameDeclarations_visiting :
    SameDeclarations visiting visitingBackwards ∧
      ∃ registry registry', compileVisiting (·.references.reverse) visiting = .ok registry ∧
        compileVisiting Condition.references visitingBackwards = .ok registry' ∧
        registry.names = ["visits", "known", "guest", "member"] ∧
        ∀ name context, registry.evaluate name context = registry'.evaluate name context := by
  have hreverse (c : Condition) (name : String) :
      name ∈ c.references.reverse ↔ name ∈ c.references := List.mem_reverse
  have hforth (c : Condition) (name : String) : name ∈ c.references ↔ name ∈ c.references := Iff.rfl
  obtain ⟨hboth, hnames⟩ := compile_of_sameDeclarations hreverse hforth sameDeclarations_visiting
    (exists_parse_of_all (show visiting.all (fun d =>
      (Expression.parse (visiting.map (·.name)) d.value).toOption.isSome) = true by decide +kernel))
    (exists_parse_of_all (show visitingBackwards.all (fun d =>
      (Expression.parse (visitingBackwards.map (·.name)) d.value).toOption.isSome) = true by decide +kernel))
  have hokay : (compileVisiting (·.references.reverse) visiting).toOption.isSome = true := by decide +kernel
  rcases hboth with ⟨registry, registry', h, h', hevaluate⟩ | ⟨_, _, herror, -⟩
  · refine ⟨sameDeclarations_visiting, registry, registry', h, h', ?_, hevaluate⟩
    rw [(hnames registry h).2]
    rfl
  · rw [herror] at hokay
    cases hokay

end Registry

end Questionnaire
