import Questionnaire.Proofs.Rule.Settled
import Questionnaire.Proofs.State.Merging

/-!
# Merging settled values

A later answer takes the place of an earlier one, except that objects merge member by member. Either
way a value that a rule leaves alone stays one (`Settled.mergeValue`).
-/

namespace Questionnaire

theorem Leaf.Settled.ne_obj {kind : Leaf} (hkind : kind ≠ .any) {value : Json}
    (h : kind.Settled value) (fields : Fields) : value ≠ .obj fields := by
  rintro rfl
  cases h.isScalar hkind

theorem mergeValue_of_ne_obj (old : Option Json) {value : Json} (h : ∀ fields, value ≠ .obj fields) :
    mergeValue old value = value :=
  mergeValue_of_not_both fun _ fields _ => h fields

namespace Rule

theorem IsPart.ne_obj {rule : Rule} (hpart : rule.IsPart) {options : ValidationOptions}
    {name : String} {siblings : Option Fields} {value : Json}
    (h : (rule.check options name siblings (some value)).failures = []) (fields : Fields) :
    value ≠ .obj fields := by
  rintro rfl
  cases rule with
  | leaf kind a =>
      obtain ⟨hkind, hblanks⟩ := hpart
      have hallows : a.allows (.obj fields) = false := by
        rw [← Bool.not_eq_true, Attributes.allows_iff hblanks]
        intro hmem
        rcases hblanks _ hmem with hnull | hempty
        · exact nomatch hnull
        · exact nomatch hempty
      rw [check, Attributes.apply_some hallows nofun] at h
      rw [(Attributes.finish_of_passes h).1] at h
      cases Leaf.isScalar_of_check hkind h
  | _ => exact hpart.elim

/-- Members that rules leave alone are left alone after a merge. -/
theorem SettledMembers.mergeFields {keys : Keys} (hparts : ∀ entry ∈ keys, IsPart entry.2)
    {target fields : Fields} (htarget : SettledMembers keys target)
    (hfields : SettledMembers keys fields) :
    SettledMembers keys (mergeFields target fields) := by
  have hordered := htarget.ordered.mergeFields fields
  refine ⟨hordered, ?_, ?_⟩
  · intro member hmember
    have hget := hordered.get?_of_mem hmember
    rw [get?_mergeFields hfields.ordered] at hget
    split at hget
    · next value hvalue => exact hfields.known (member.1, value) (Fields.mem_of_get? hvalue)
    · exact htarget.known (member.1, member.2) (Fields.mem_of_get? hget)
  · intro entry hentry options siblings
    rw [get?_mergeFields hfields.ordered]
    cases hvalue : fields.get? entry.1 with
    | none => exact htarget.passes entry hentry options siblings
    | some value =>
        have hpasses := hfields.passes entry hentry
        rw [hvalue] at hpasses
        -- A part is never an object, so it takes the place of the part before.
        have hne := (hparts entry hentry).ne_obj (congrArg Checked.failures (hpasses options siblings))
        show entry.2.check options entry.1 siblings (some (mergeValue _ value)) =
          ⟨some (mergeValue _ value), []⟩
        rw [mergeValue_of_ne_obj _ hne]
        exact hpasses options siblings

theorem Settled.mergeValue {rule : Rule} (hfield : rule.IsField) {old : Option Json} {value : Json}
    (hold : ∀ before, old = some before → before = .null ∨ rule.Settled before)
    (h : rule.Settled value) : rule.Settled (mergeValue old value) := by
  cases hfield with
  | one hkind =>
      cases h with
      | one h hvalid =>
          rw [mergeValue_of_ne_obj old (h.ne_obj hkind)]
          exact .one h hvalid
  | several hkind hvalid =>
      have hne : ∀ fields, value ≠ .obj fields := by
        cases h with
        | single h _ => exact h.ne_obj hkind
        | many _ => exact nofun
      rw [mergeValue_of_ne_obj old hne]
      exact h
  | @members keys a hnodup hparts hvalid =>
      cases h with
      | @members _ _ fields h =>
          unfold Questionnaire.mergeValue
          split
          · next target =>
            rcases hold _ rfl with hnull | hbefore
            · exact nomatch hnull
            · cases hbefore with
              | members hbefore => exact .members (hbefore.mergeFields hparts h)
          · exact .members h

end Rule

end Questionnaire
