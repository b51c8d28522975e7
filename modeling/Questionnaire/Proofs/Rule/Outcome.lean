import Questionnaire.Proofs.Rule.Settled

/-!
# What the rule of a field makes of a value

The rule of a field passes a value that is welcome as it is, and otherwise makes a scalar of it, or
an array of as many items, or an object member by member (`IsField.outcome`). So an empty list comes
of an empty list alone (`Outcome.eq_of_nil`).
-/

namespace Questionnaire.Rule

/-- What a rule makes of what is given. -/
inductive Outcome (rule : Rule) : (given : Option Json) → (value : Json) → Prop
  | welcome {value : Json} (h : rule.attributes.allows value = true) :
      Outcome rule (some value) value
  | scalar {given : Option Json} {value : Json} (h : value.isScalar = true) :
      Outcome rule given value
  | items {items items' : List Json} (h : items.length = items'.length) :
      Outcome rule (some (.arr items)) (.arr items')
  | members {keys : Keys} {a : Attributes} {fields : Fields} (hrule : rule = .object keys false a)
      (h : Accepts {} keys fields) :
      Outcome rule (some (.obj fields)) (.obj (checkKeys {} keys fields).1)

variable {name : String} {siblings : Option Fields} {given : Option Json} {value : Json}

theorem welcome_or_isScalar {kind : Leaf} (hkind : kind ≠ .any) {a : Attributes}
    (h : (Rule.leaf kind a).check {} name siblings given = ⟨some value, []⟩) :
    (given = some value ∧ a.allows value = true) ∨ value.isScalar = true := by
  cases check_leaf_eq_iff.mp h with
  | allowed hallows => exact .inl ⟨rfl, hallows⟩
  | converted _ h _ =>
      obtain ⟨converted, hcheck, hsettled⟩ := Leaf.settled_of_check hkind
        (congrArg Checked.failures h.2)
      cases h.2.symm.trans hcheck
      rcases hsettled with hsettled | ⟨-, rfl⟩
      · exact .inr (hsettled.isScalar hkind)
      · exact .inr rfl

/-- A choice is a scalar, and several choices are as many as are given. -/
theorem outcome_severalOf {kind : Leaf} (hkind : kind ≠ .any) {choices : List Json} {a : Attributes}
    (h : (severalOf kind choices a).check {} name siblings given = ⟨some value, []⟩) :
    (severalOf kind choices a).Outcome given value := by
  cases check_alternatives_eq_iff.mp h with
  | allowed hallows => exact .welcome hallows
  | converted _ h _ =>
      obtain ⟨-, before, rule, after, hrules, -, hrule⟩ := h
      have hmem : rule ∈ [Rule.leaf kind { valid := some choices },
          .array (.leaf kind { valid := some choices }) {}] := by
        rw [hrules]
        simp
      rcases List.mem_pair.mp hmem with rfl | rfl
      · rcases welcome_or_isScalar hkind hrule with ⟨-, hallows⟩ | hscalar
        · exact nomatch hallows
        · exact .scalar hscalar
      · cases check_array_eq_iff.mp hrule with
        | allowed hallows => exact nomatch hallows
        | converted _ h _ =>
            obtain ⟨hitems⟩ := h
            exact .items hitems.length_eq

theorem IsField.outcome {rule : Rule} (hfield : rule.IsField)
    (h : rule.check {} name siblings given = ⟨some value, []⟩) : rule.Outcome given value := by
  cases hfield with
  | one hkind =>
      rcases welcome_or_isScalar hkind h with ⟨rfl, hallows⟩ | hscalar
      · exact .welcome hallows
      · exact .scalar hscalar
  | several hkind _ => exact outcome_severalOf hkind h
  | @members keys a _ _ hvalid =>
      cases check_object_eq_iff.mp h with
      | allowed hallows => exact .welcome hallows
      | converted hallows hmembers _ =>
          obtain ⟨hknown, hunknown⟩ := hmembers
          have haccepts : Accepts {} keys _ :=
            accepts_of_check_object hallows hvalid rfl (congrArg Checked.failures h)
          rw [checkUnknown_of_has haccepts.known]
          exact .members rfl haccepts

/-- An empty list comes of an empty list alone. -/
theorem Outcome.eq_of_nil {rule : Rule} (h : rule.Outcome given (.arr [])) :
    given = some (.arr []) := by
  cases h with
  | welcome _ => rfl
  | scalar h => exact nomatch h
  | items h => rw [List.eq_nil_of_length_eq_zero h]

end Questionnaire.Rule
