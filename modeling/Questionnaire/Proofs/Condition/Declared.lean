import Questionnaire.Condition.Registry

/-!
# Declared conditions

What definitions declare: of several with one name the last counts (`lastDeclaration?`). Parsing all
of them gives the conditions of the last declarations (`findCondition?_parseAll`).
-/

namespace Questionnaire

/-- The last definition of a name. -/
def lastDeclaration? (definitions : List ConditionDefinition) (name : String) :
    Option ConditionDefinition :=
  (definitions.filter (·.name == name)).getLast?

/-- The condition that a definition declares where some names are known. -/
def Declares (known : List String) (d : ConditionDefinition) (c : Condition) : Prop :=
  c.name = d.name ∧ c.source = d.value ∧ Expression.parse known d.value = .ok c.expression

theorem findCondition?_cons (c : Condition) (rest : List Condition) (name : String) :
    findCondition? (c :: rest) name = if c.name = name then some c else findCondition? rest name := by
  rw [findCondition?]
  by_cases h : c.name = name
  · rw [List.find?_cons_of_pos (by simpa using h), if_pos h]
  · rw [List.find?_cons_of_neg (by simpa using h), if_neg h, findCondition?]

theorem findCondition?_declare (c : Condition) (conditions : List Condition) (name : String) :
    findCondition? (declare c conditions) name =
      if c.name = name then some c else findCondition? conditions name := by
  induction conditions with
  | nil => simp [declare, findCondition?, List.find?_singleton]
  | cons other rest ih =>
      rw [declare]
      by_cases hsame : other.name = c.name
      · rw [if_pos hsame, findCondition?_cons, findCondition?_cons, hsame]
        split <;> rfl
      · rw [if_neg hsame, findCondition?_cons, findCondition?_cons, ih]
        by_cases hother : other.name = name
        · rw [if_pos hother, if_pos hother, if_neg fun heq => hsame (hother.trans heq.symm)]
        · rw [if_neg hother, if_neg hother]

theorem lastDeclaration?_cons (d : ConditionDefinition) (rest : List ConditionDefinition)
    (name : String) : lastDeclaration? (d :: rest) name =
      (lastDeclaration? rest name).or (if d.name = name then some d else none) := by
  simp only [lastDeclaration?, List.filter_cons]
  by_cases h : d.name = name
  · simp [h, List.getLast?_cons]
  · simp [h]

theorem lastDeclaration?_isSome {definitions : List ConditionDefinition} {name : String} :
    (lastDeclaration? definitions name).isSome ↔ name ∈ definitions.map (·.name) := by
  simp [lastDeclaration?]

namespace Registry

variable {known : List String} {definitions : List ConditionDefinition}

/-- If every definition parses, all of them do. -/
theorem exists_parseAll (h : ∀ d ∈ definitions, ∃ e, Expression.parse known d.value = .ok e)
    (conditions : List Condition) :
    ∃ result, parseAll known conditions definitions = .ok result := by
  induction definitions generalizing conditions with
  | nil => exact ⟨conditions, rfl⟩
  | cons d rest ih =>
      obtain ⟨⟨e, he⟩, hrest⟩ := List.forall_mem_cons.mp h
      simp only [parseAll, he]
      exact ih hrest _

/-- The condition of a name is the one of its last definition. -/
theorem findCondition?_parseAll {conditions result : List Condition}
    (h : parseAll known conditions definitions = .ok result) (name : String) :
    (lastDeclaration? definitions name = none ∧
        findCondition? result name = findCondition? conditions name) ∨
      ∃ d c, lastDeclaration? definitions name = some d ∧ Declares known d c ∧
        findCondition? result name = some c := by
  induction definitions generalizing conditions with
  | nil =>
      cases h
      exact .inl ⟨rfl, rfl⟩
  | cons d rest ih =>
      rw [parseAll] at h
      split at h
      · exact nomatch h
      · next e he =>
        rw [lastDeclaration?_cons]
        -- Either `d` is the last definition of the name, or a later one replaces what `d` declares.
        rcases ih h with ⟨hnone, hfind⟩ | ⟨last, c, hlast, hdeclares, hfind⟩
        · rw [findCondition?_declare] at hfind
          rw [hnone, Option.none_or]
          by_cases hname : d.name = name
          · rw [if_pos hname] at hfind ⊢
            exact .inr ⟨d, _, rfl, ⟨rfl, rfl, he⟩, hfind⟩
          · rw [if_neg hname] at hfind ⊢
            exact .inl ⟨rfl, hfind⟩
        · exact .inr ⟨last, c, by rw [hlast, Option.some_or], hdeclares, hfind⟩

section

variable {references : Condition → List String} {registry : Registry}

/-- What is compiled has been parsed, and the search for circles has finished all of it. -/
theorem parseAll_and_visitEach_of_compileVisiting
    (h : compileVisiting references definitions = .ok registry) :
    parseAll (definitions.map ConditionDefinition.name) [] definitions = .ok registry.conditions ∧
      visitEach (visit references registry.conditions []) []
        (registry.conditions.map Condition.name) = .ok registry.ordered := by
  rw [compileVisiting] at h
  split at h
  · cases h
  · next conditions hconditions =>
    rw [ofConditions] at h
    split at h
    · cases h
    · next ordered hordered =>
      cases h
      exact ⟨hconditions, hordered⟩

theorem parseAll_of_compileVisiting (h : compileVisiting references definitions = .ok registry) :
    parseAll (definitions.map ConditionDefinition.name) [] definitions =
      .ok registry.conditions :=
  (parseAll_and_visitEach_of_compileVisiting h).1

theorem visitEach_of_compileVisiting (h : compileVisiting references definitions = .ok registry) :
    visitEach (visit references registry.conditions []) [] (registry.conditions.map Condition.name) =
      .ok registry.ordered :=
  (parseAll_and_visitEach_of_compileVisiting h).2

end

end Registry

end Questionnaire
