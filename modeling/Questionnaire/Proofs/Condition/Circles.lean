import Questionnaire.Proofs.Condition.Declared
import Questionnaire.Proofs.Condition.Order

/-!
# Circles of references

Compiling refuses conditions exactly if their references lead in a circle, and names a condition on
a circle. The references are those of the last definition of each name.
-/

namespace Questionnaire

/-- The last definition of one name refers to another name. -/
def Refers (definitions : List ConditionDefinition) (a b : String) : Prop :=
  ∃ d e, lastDeclaration? definitions a = some d ∧
    Expression.parse (definitions.map ConditionDefinition.name) d.value = .ok e ∧ b ∈ e.conditions

/-- A name leads back to itself along references. -/
def OnCircle (definitions : List ConditionDefinition) (name : String) : Prop :=
  Relation.TransGen (Refers definitions) name name

namespace Registry

/-- References between the conditions parsed are those between the definitions. -/
theorem refersTo_iff {references : Condition → List String}
    (hreferences : ∀ c name, name ∈ references c ↔ name ∈ c.references)
    {definitions : List ConditionDefinition} {conditions : List Condition}
    (h : parseAll (definitions.map ConditionDefinition.name) [] definitions = .ok conditions)
    (a b : String) : RefersTo references conditions a b ↔ Refers definitions a b := by
  rcases findCondition?_parseAll h a with ⟨hnone, hfind⟩ | ⟨d, c, hlast, hdeclares, hfind⟩
  · have hfind : findCondition? conditions a = none := hfind
    simp [RefersTo, Refers, hnone, hfind]
  · obtain ⟨-, -, hparse⟩ := hdeclares
    simp [RefersTo, Refers, hlast, hfind, hparse, hreferences, Condition.references]

theorem leadsTo_iff {references : Condition → List String}
    (hreferences : ∀ c name, name ∈ references c ↔ name ∈ c.references)
    {definitions : List ConditionDefinition} {conditions : List Condition}
    (h : parseAll (definitions.map ConditionDefinition.name) [] definitions = .ok conditions)
    (name : String) : LeadsTo references conditions name name ↔ OnCircle definitions name := by
  have hrelation : RefersTo references conditions = Refers definitions := by
    funext a b
    exact propext (refersTo_iff hreferences h a b)
  rw [LeadsTo, hrelation, OnCircle]

/-- Of definitions that all parse, compiling fails with a circular condition exactly if some name is
on a circle of references; the name that it gives is on one, and without a circle it succeeds. This
holds in whatever order the references of each expression are visited. -/
theorem compileVisiting_circular_iff {references : Condition → List String}
    (hreferences : ∀ c name, name ∈ references c ↔ name ∈ c.references)
    {definitions : List ConditionDefinition}
    (hparse : ∀ d ∈ definitions, ∃ e,
      Expression.parse (definitions.map ConditionDefinition.name) d.value = .ok e) :
    ((∃ name, compileVisiting references definitions = .error (.circularCondition name)) ↔
      ∃ name, OnCircle definitions name) ∧
    (∀ name, compileVisiting references definitions = .error (.circularCondition name) →
      OnCircle definitions name) ∧
    ((∀ name, ¬ OnCircle definitions name) →
      ∃ registry, compileVisiting references definitions = .ok registry) := by
  obtain ⟨conditions, hconditions⟩ := exists_parseAll hparse []
  have hcircle := leadsTo_iff hreferences hconditions
  simp only [compileVisiting, hconditions, ofConditions]
  cases hsearch : visitEach (visit references conditions []) []
      (conditions.map Condition.name) with
  | error name =>
      -- The search met a name twice: that name is on a circle.
      have hname := (hcircle name).mp (visitEach_all_error hsearch)
      refine ⟨⟨fun _ => ⟨name, hname⟩, fun _ => ⟨name, rfl⟩⟩, ?_, fun h => absurd hname (h name)⟩
      rintro _ ⟨⟩
      exact hname
  | ok ordered =>
      obtain ⟨hdependence, hall⟩ := visitEach_all_ok hsearch
      -- The search finished everything in an order of dependence: there is no circle.
      have hnone (name : String) : ¬ OnCircle definitions name := fun h =>
        hdependence.not_circular hall name ((hcircle name).mpr h)
      refine ⟨⟨?_, ?_⟩, ?_, fun _ => ⟨_, rfl⟩⟩
      · rintro ⟨_, ⟨⟩⟩
      · rintro ⟨name, h⟩
        exact absurd h (hnone name)
      · rintro _ ⟨⟩

/-- Rules about who may sign. The first of the two about staff is the only one to refer back. -/
def signing : List ConditionDefinition :=
  [⟨"signs", "@manager or @deputy"⟩, ⟨"manager", "@staff and grade == 'M'"⟩,
    ⟨"deputy", "@staff and not @manager"⟩, ⟨"staff", "not @signs"⟩, ⟨"staff", "employed"⟩]

theorem exists_parse_of_all {definitions : List ConditionDefinition} {known : List String}
    (h : definitions.all (fun d => (Expression.parse known d.value).toOption.isSome) = true) :
    ∀ d ∈ definitions, ∃ e, Expression.parse known d.value = .ok e := by
  intro d hd
  have hsome := List.all_eq_true.mp h d hd
  cases hparse : Expression.parse known d.value with
  | error _ =>
      rw [hparse] at hsome
      exact nomatch hsome
  | ok e => exact ⟨e, rfl⟩

/-- Only the last definition of a name counts, and shared references are no circle; the other way
round the references do lead back. -/
theorem compileVisiting_signing :
    (∃ registry, compileVisiting (·.references.reverse) signing = .ok registry) ∧
      (¬ ∃ name, OnCircle signing name) ∧
      ∃ name, compileVisiting (·.references.reverse) signing.reverse =
        .error (.circularCondition name) ∧ OnCircle signing.reverse name := by
  have hreferences (c : Condition) (name : String) :
      name ∈ c.references.reverse ↔ name ∈ c.references := List.mem_reverse
  have hforth := compileVisiting_circular_iff hreferences (exists_parse_of_all
    (show signing.all (fun d => (Expression.parse (signing.map (·.name)) d.value).toOption.isSome) =
      true by decide +kernel))
  have hback := compileVisiting_circular_iff hreferences (exists_parse_of_all
    (show signing.reverse.all (fun d =>
      (Expression.parse (signing.reverse.map (·.name)) d.value).toOption.isSome) = true by decide +kernel))
  have hokay : (compileVisiting (·.references.reverse) signing).toOption.isSome = true := by decide +kernel
  have hcircular : compileVisiting (·.references.reverse) signing.reverse =
      .error (.circularCondition "staff") := by with_unfolding_all rfl
  have hnone : ¬ ∃ name, OnCircle signing name := by
    intro h
    obtain ⟨name, herror⟩ := hforth.1.mpr h
    rw [herror] at hokay
    cases hokay
  exact ⟨hforth.2.2 fun name h => hnone ⟨name, h⟩, hnone, "staff", hcircular, hback.2.1 _ hcircular⟩

end Registry

end Questionnaire
