import Questionnaire.Proofs.Component.Inputs
import Questionnaire.Proofs.Rule.Outcome

/-!
# Where converted members come from

An accepted object has at each key what some question's own rule made of the member there was
(`exists_outcome`), in one of the ways in which the rule can be asked behind reveals (`Asks`). This
holds of every key, also of one that several questions contribute.
-/

namespace Questionnaire

namespace Side

/-- The ways in which a rule is asked behind reveals. -/
inductive Asks (side : Side) (rule : Rule) : Rule → Prop
  | alone : Asks side rule rule
  | shown : Asks side rule rule.required
  | hidden : Asks side rule (rule.optional.allowing side.blank)

theorem Asks.isField {side : Side} {rule asked : Rule} (h : side.Asks rule asked)
    (hfield : rule.IsField) : asked.IsField := by
  cases h with
  | alone => exact hfield
  | shown => exact hfield.required
  | hidden => exact hfield.optional.allowing _

/-- Behind reveals a rule is asked in one of the ways. -/
theorem exists_asks (side : Side) (behind : List Reveal) (rule : Rule) (fields : Fields) :
    ∃ asked, side.Asks rule asked ∧ ∀ options name value,
      (side.behind behind rule).check options name (some fields) value =
        asked.check options name (some fields) value := by
  cases behind with
  | nil => exact ⟨rule, .alone, fun _ _ _ => rfl⟩
  | cons reveal outer =>
      by_cases hselected : reveal.isSelected fields = true
      · refine ⟨_, .shown, fun options name value => ?_⟩
        rw [check_behind, if_pos hselected]
      · refine ⟨_, .hidden, fun options name value => ?_⟩
        rw [check_behind, if_neg hselected]

/-- The rule for a key is that of a question, behind its reveals. -/
theorem exists_own_of_get? (side : Side) {components : List Component} {key : String} {rule : Rule}
    (h : (side.groupKeys components).get? key = some rule) :
    ∃ q ∈ questions components, ∃ own, (key, own) ∈ side.own q.field ∧
      rule = side.behind q.behind own := by
  rw [get?_groupKeys] at h
  have hmem := List.mem_reverse.mp (Keys.mem_of_get? h)
  obtain ⟨q, hq, hentry⟩ := List.mem_flatMap.mp hmem
  obtain ⟨⟨k, own⟩, hown, heq⟩ := List.mem_map.mp hentry
  cases heq
  exact ⟨q, hq, own, hown, rfl⟩

/-- What an accepted object has at a key, some question's rule made of the member there was. -/
theorem exists_outcome {side : Side} {components : List Component} {fields : Fields}
    (haccepts : Rule.Accepts {} (side.groupKeys components) fields)
    (hfields : ∀ q ∈ questions components, ∀ entry ∈ side.own q.field, entry.2.IsField)
    {key : String} {value : Json} (h : (side.converted components fields).get? key = some value) :
    ∃ q ∈ questions components, ∃ own, (key, own) ∈ side.own q.field ∧
      ∃ asked, side.Asks own asked ∧ asked.Outcome (fields.get? key) value := by
  rw [converted, Rule.get?_checkKeys {} (side.nodup_groupKeys components)] at h
  obtain ⟨rule, hrule, hvalue⟩ := Option.bind_eq_some_iff.mp h
  have hpass := Checked.eq_of_passes (haccepts.passes _ (Keys.mem_of_get? hrule))
  obtain ⟨q, hq, own, hown, rfl⟩ := side.exists_own_of_get? hrule
  obtain ⟨asked, hasks, hcheck⟩ := side.exists_asks q.behind own fields
  rw [hcheck] at hpass hvalue
  have hmade : asked.check {} key (some fields) (fields.get? key) = ⟨some value, []⟩ := by
    rw [hpass, hvalue]
  exact ⟨q, hq, own, hown, asked, hasks, (hasks.isField (hfields q hq _ hown)).outcome hmade⟩

end Side

theorem isField_own_state {c : Component} (hform : c.isForm = true)
    (hfield : c.IsBuiltinField = true) {entry : String × Rule} (hentry : entry ∈ Side.state.own c) :
    entry.2.IsField := by
  rw [Component.own_state hform] at hentry
  obtain rfl := List.mem_singleton.mp hentry
  exact isField_ownState hfield

end Questionnaire
