import Questionnaire.Definition.Structure

/-!
# Issues inside a part

The check of a part of a definition reports its issues at the part's place or under it, and each for
a fault that the part has by itself. Two faults are not of this kind, that of a section that is not
declared and that of a name that is used again; the checks here report neither.
-/

namespace Questionnaire

/-- A fault that a part has by itself, whatever surrounds it. -/
def StructureFault.isLocal : StructureFault → Bool
  | .undeclaredSection _ | .duplicate _ _ => false
  | _ => true

namespace Structure

/-! ## Issues inside a part -/

/-- Issues of a part that stands at a place. -/
def Inside (place : Place) (issues : List StructureIssue) : Prop :=
  ∀ issue ∈ issues, place <+: issue.place ∧ issue.fault.isLocal = true

variable {place : Place}

@[simp] theorem inside_nil : Inside place [] :=
  nofun

@[simp] theorem inside_append {issues more : List StructureIssue} :
    Inside place (issues ++ more) ↔ Inside place issues ∧ Inside place more :=
  List.forall_mem_append

@[simp] theorem inside_flatMap {α : Type} {f : α → List StructureIssue} {l : List α} :
    Inside place (l.flatMap f) ↔ ∀ a ∈ l, Inside place (f a) := by
  simp only [Inside, List.mem_flatMap]
  grind

@[simp] theorem inside_singleton {steps : Place} {fault : StructureFault} :
    Inside place [⟨place ++ steps, fault⟩] ↔ fault.isLocal = true := by
  simp [Inside]

theorem Inside.of_under {steps : Place} {issues : List StructureIssue}
    (h : Inside (place ++ steps) issues) : Inside place issues :=
  fun issue hissue => ⟨(List.prefix_append place steps).trans (h issue hissue).1, (h issue hissue).2⟩

section

variable {fields : Fields} {key : String}

@[simp] theorem inside_keyIssues (allowed : List String) :
    Inside place (keyIssues allowed fields place) := by
  intro issue hissue
  obtain ⟨member, -, rfl⟩ := List.mem_map.mp hissue
  exact ⟨List.prefix_append .., rfl⟩

@[simp] theorem inside_memberIssues {test : Json → Bool} {fault : StructureFault}
    (h : fault.isLocal = true) : Inside place (memberIssues test fault fields place key) := by
  unfold memberIssues
  repeat' split
  all_goals simp [h]

@[simp] theorem inside_missingIssues : Inside place (missingIssues fields place key) := by
  unfold missingIssues
  split
  · exact inside_nil
  · exact inside_singleton.mpr rfl

@[simp] theorem inside_optionalTextIssues : Inside place (optionalTextIssues fields place key) :=
  inside_memberIssues rfl

@[simp] theorem inside_textIssues : Inside place (textIssues fields place key) :=
  inside_append.mpr ⟨inside_missingIssues, inside_optionalTextIssues⟩

@[simp] theorem inside_booleanIssues : Inside place (booleanIssues fields place key) :=
  inside_memberIssues rfl

@[simp] theorem inside_numberIssues : Inside place (numberIssues fields place key) :=
  inside_memberIssues rfl

@[simp] theorem inside_countIssues : Inside place (countIssues fields place key) :=
  inside_memberIssues rfl

variable {visit : Fields → Place → List StructureIssue}

theorem inside_objectIssues (h : ∀ inside place, Inside place (visit inside place)) (value : Json)
    (place : Place) : Inside place (objectIssues visit value place) := by
  cases value with
  | obj inside => exact h inside place
  | _ => exact fun issue hissue => by simp_all [objectIssues, StructureFault.isLocal]

theorem inside_insideIssues (h : ∀ inside place, Inside place (visit inside place)) :
    Inside place (insideIssues visit fields place key) := by
  unfold insideIssues
  split
  · exact (inside_objectIssues h _ _).of_under
  · exact inside_nil

theorem inside_eachIssues (h : ∀ inside place, Inside place (visit inside place)) :
    Inside place (eachIssues visit fields place key) := by
  unfold eachIssues
  split
  · exact inside_nil
  · exact inside_flatMap.mpr fun entry _ => (inside_objectIssues h _ _).of_under
  · exact inside_singleton.mpr rfl

end

/-! ## Parts of a definition -/

theorem inside_optionsIssues (fields : Fields) (place : Place) :
    Inside place (optionsIssues fields place) := by
  simp [optionsIssues]

theorem inside_constraintsIssues (fields : Fields) (place : Place) :
    Inside place (constraintsIssues fields place) := by
  simp [constraintsIssues]

theorem inside_componentIssues (fields : Fields) (place : Place) :
    Inside place (componentIssues fields place) := by
  simp [componentIssues, inside_insideIssues inside_optionsIssues,
    inside_insideIssues inside_constraintsIssues]

theorem inside_componentsIssues (fields : Fields) (place : Place) :
    Inside place (componentsIssues fields place) :=
  inside_eachIssues inside_componentIssues

theorem inside_revealIssues (fields : Fields) (place : Place) :
    Inside place (revealIssues fields place) := by
  simp [revealIssues, inside_componentsIssues]

theorem inside_valueIssues (type? : Option ListType) (fields : Fields) (place : Place) :
    Inside place (valueIssues type? fields place) := by
  cases type? with
  | none => simp [valueIssues]
  | some type =>
      exact inside_append.mpr ⟨inside_missingIssues, inside_memberIssues (by rfl)⟩

theorem inside_itemIssues (type? : Option ListType) (fields : Fields) (place : Place) :
    Inside place (itemIssues type? fields place) := by
  simp [itemIssues, inside_valueIssues, inside_insideIssues inside_revealIssues]

theorem inside_listTypeIssues (fields : Fields) (place : Place) :
    Inside place (listTypeIssues fields place) := by
  unfold listTypeIssues
  repeat' split
  all_goals simp [StructureFault.isLocal]

theorem inside_listIssues (fields : Fields) (place : Place) :
    Inside place (listIssues fields place) := by
  simp [listIssues, inside_listTypeIssues, inside_eachIssues (inside_itemIssues _)]

theorem inside_sectionIssues (fields : Fields) (place : Place) :
    Inside place (sectionIssues fields place) := by
  simp [sectionIssues]

theorem inside_conditionIssues (fields : Fields) (place : Place) :
    Inside place (conditionIssues fields place) := by
  simp [conditionIssues]

theorem inside_routeIssues (fields : Fields) (place : Place) :
    Inside place (routeIssues fields place) := by
  simp [routeIssues]

theorem inside_pathIssues (fields : Fields) (place : Place) :
    Inside place (pathIssues fields place) := by
  unfold pathIssues
  repeat' split
  all_goals simp [StructureFault.isLocal]

end Structure

end Questionnaire
