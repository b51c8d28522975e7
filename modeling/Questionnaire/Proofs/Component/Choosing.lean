import Questionnaire.Proofs.Component.Answers
import Questionnaire.Proofs.Component.Asking

/-!
# What choosers store

A valid submitted choice is already the value that is stored: turning it into state changes nothing
(`storedChoice_of_settled`), and neither does the rule of the stored answer
(`check_core_of_settled`). So what a chooser selects in the state made of a submission it selects
in the validated state.
-/

namespace Questionnaire

/-! ## Values by kind -/

namespace Leaf.Settled

theorem eq_str {c : TextConstraints} {value : Json} (h : (Leaf.text c).Settled value) :
    ∃ s, value = .str s := by
  have hcheck := congrArg Checked.failures (h.check_eq false "")
  cases value with
  | str s => exact ⟨s, rfl⟩
  | _ => exact nomatch hcheck

theorem eq_num {c : NumberConstraints} {value : Json} (h : (Leaf.number c).Settled value) :
    ∃ x, value = Leaf.numberValue x ∧ Leaf.numberFaults c x = [] := by
  have hcheck := h.check_eq false ""
  rw [Leaf.check] at hcheck
  cases hread : Leaf.numberOf? value with
  | none =>
      rw [hread] at hcheck
      cases congrArg Checked.failures hcheck
  | some x =>
      rw [hread] at hcheck
      have hvalue := congrArg Checked.value hcheck
      have hfaults := congrArg Checked.failures hcheck
      exact ⟨x, (Option.some.inj hvalue).symm, List.map_eq_nil_iff.mp hfaults⟩

theorem eq_bool {value : Json} (h : Leaf.boolean.Settled value) : ∃ b, value = .bool b := by
  have hcheck := h.check_eq false ""
  rw [Leaf.check] at hcheck
  cases hread : Leaf.booleanOf? value with
  | none =>
      rw [hread] at hcheck
      cases congrArg Checked.failures hcheck
  | some b =>
      rw [hread] at hcheck
      exact ⟨b, (Option.some.inj (congrArg Checked.value hcheck)).symm⟩

end Leaf.Settled

theorem Leaf.sort_eq_number {kind : Leaf} {c : NumberConstraints}
    (h : kind.sort = (Leaf.number c).sort) : ∃ c', kind = .number c' := by
  cases kind with
  | number c' => exact ⟨c', rfl⟩
  | _ => exact nomatch h

theorem Leaf.sort_eq_boolean {kind : Leaf} (h : kind.sort = Leaf.boolean.sort) :
    kind = .boolean := by
  cases kind with
  | boolean => rfl
  | _ => exact nomatch h

/-- The leaf of the values of a list. -/
def ListType.leaf : ListType → Leaf
  | .string => .text {}
  | .number => .number {}
  | .boolean => .boolean

theorem ListType.base_eq_leaf (type : ListType) : type.base = .leaf type.leaf {} := by
  cases type <;> rfl

/-- A value of a list's type is not changed by being brought into that type. -/
theorem ListType.coerce_of_settled (type : ListType) {kind : Leaf}
    (hsort : kind.sort = type.leaf.sort) {value : Json} (h : kind.Settled value) :
    type.coerce value = value := by
  cases type with
  | string => rfl
  | number =>
      obtain ⟨c, rfl⟩ := Leaf.sort_eq_number hsort
      obtain ⟨x, rfl, -⟩ := h.eq_num
      obtain ⟨n, hn⟩ := Leaf.numberValue_eq_num x
      rw [hn]
      rfl
  | boolean =>
      obtain rfl := Leaf.sort_eq_boolean hsort
      obtain ⟨b, rfl⟩ := h.eq_bool
      rfl

theorem isScalar_numberOfText (text : String) : (numberOfText text).isScalar = true := by
  unfold numberOfText
  dsimp only
  split
  · rfl
  · split <;> rfl

/-- A text stays a scalar when it is brought into a list's type. -/
theorem ListType.isScalar_coerce_str (type : ListType) (text : String) :
    (type.coerce (.str text)).isScalar = true := by
  cases type with
  | string => rfl
  | number => exact isScalar_numberOfText text
  | boolean =>
      unfold coerce
      dsimp only
      split
      · rfl
      · split <;> rfl

/-- A choice is stored as an array only where an array of as many items is given. -/
theorem exists_items_of_storedChoice {type : ListType} {given : Option Json} {items : List Json}
    (h : storedChoice type given = .arr items) :
    ∃ items', given = some (.arr items') ∧ items.length = items'.length := by
  cases given with
  | none => cases h
  | some value =>
      cases value with
      | arr items' =>
          cases h
          exact ⟨items', rfl, List.length_map _⟩
      | str text =>
          rw [storedChoice] at h
          · split at h
            · cases h
            · have hscalar := type.isScalar_coerce_str text
              rw [h] at hscalar
              cases hscalar
          · exact nofun
      | _ => simp [storedChoice, ListType.coerce] at h

/-! ## Choices -/

/-- The rule of a submitted choice, before it is asked. -/
def ChoiceVariant.formCore (variant : ChoiceVariant) (d : ComponentDefinition)
    (list : ListDefinition) : Rule :=
  match variant with
  | .select => described d list.type.base
  | .yesNo | .radios => (described d list.type.base).among list.values
  | .checkboxes => described d (oneOrMore list)

theorem ChoiceVariant.formRule_eq_asked (variant : ChoiceVariant) {d : ComponentDefinition}
    (hallow : d.constraints.allow = none) (list : ListDefinition) :
    variant.formRule d list =
      (variant.formCore d list).asked (!d.isOptional) (welcome (.str "") d.isOptional) := by
  have hleaf := presence_described_leaf hallow (.str "") list.type.isBase_base
  have hamong := among_asked (!d.isOptional) (welcome (.str "") d.isOptional) list.values
    (described d list.type.base)
  cases variant with
  | select => exact hleaf
  | checkboxes => exact presence_described_oneOrMore hallow (.str "") list
  | yesNo => exact (congrArg (Rule.among list.values) hleaf).trans hamong
  | radios => exact (congrArg (Rule.among list.values) hleaf).trans hamong

section

variable {variant : ChoiceVariant} {d : ComponentDefinition} {list : ListDefinition}
  {reveals : List (Nat × Json × List Component)}

/-- The rules of a submitted and of a stored choice look at values of one kind: at a single value,
or at one or several. -/
theorem formCore_forms (variant : ChoiceVariant) (d : ComponentDefinition) (list : ListDefinition)
    (reveals : List (Nat × Json × List Component)) :
    (∃ kind a a', kind.sort = list.type.leaf.sort ∧ variant.formCore d list = .leaf kind a ∧
        (Component.choice variant d list reveals).core = .leaf kind a') ∨
      ∃ a, a.valid = none ∧
        variant.formCore d list = .severalOf list.type.leaf list.values a ∧
        (Component.choice variant d list reveals).core =
          .severalOf list.type.leaf list.values a := by
  obtain ⟨kind, a, hdescribed, hsort, -⟩ := described_leaf d list.type.leaf {}
  rw [← list.type.base_eq_leaf] at hdescribed
  cases variant with
  | checkboxes =>
      obtain ⟨a, hdescribed, hkeeps⟩ := described_alternatives d
        [list.type.base.among list.values, .arrayOf (list.type.base.among list.values)] {}
      rw [list.type.base_eq_leaf] at hdescribed
      refine Or.inr ⟨a, hkeeps.valid_eq, ?_, ?_⟩
      · rw [ChoiceVariant.formCore, oneOrMore, list.type.base_eq_leaf]
        exact hdescribed
      · rw [Component.core, oneOrMore, list.type.base_eq_leaf]
        exact hdescribed
  | select =>
      exact Or.inl ⟨kind, a, { a with valid := some list.values }, hsort, hdescribed,
        congrArg (Rule.among list.values) hdescribed⟩
  | yesNo =>
      exact Or.inl ⟨kind, _, _, hsort, congrArg (Rule.among list.values) hdescribed,
        congrArg (Rule.among list.values) hdescribed⟩
  | radios =>
      exact Or.inl ⟨kind, _, _, hsort, congrArg (Rule.among list.values) hdescribed,
        congrArg (Rule.among list.values) hdescribed⟩

theorem ListType.leaf_ne_any (type : ListType) : type.leaf ≠ .any := by
  cases type <;> exact nofun

/-- A valid submitted choice is stored as it is. -/
theorem storedChoice_of_settled {value : Json} (h : (variant.formCore d list).Settled value) :
    storedChoice list.type (some value) = value := by
  have hsingle : ∀ {kind : Leaf} {value : Json}, kind.sort = list.type.leaf.sort →
      kind.Settled value → storedChoice list.type (some value) = value := by
    intro kind value hsort hsettled
    have hcoerce := list.type.coerce_of_settled hsort hsettled
    have hkind := Leaf.ne_any_of_sort hsort list.type.leaf_ne_any
    have hempty := hsettled.ne_empty
    cases value with
    | arr items => cases hsettled.isScalar hkind
    | _ => simp_all [storedChoice]
  rcases formCore_forms variant d list [] with ⟨kind, a, -, hsort, hform, -⟩ | ⟨a, -, hform, -⟩
  · rw [hform] at h
    cases h with
    | one h _ => exact hsingle hsort h
  · rw [hform] at h
    cases h with
    | single h _ => exact hsingle rfl h
    | @many _ _ _ items h =>
        have hitems : items.map list.type.coerce = items := by
          rw [List.map_congr_left fun item hitem =>
            list.type.coerce_of_settled rfl (h item hitem).1]
          exact List.map_id _
        rw [storedChoice, hitems]

theorem check_leaf_of_passes {kind : Leaf} {a : Attributes} (hblanks : Blanks a.allow)
    {value : Json} (h : kind.Settled value) {options : ValidationOptions} {name : String}
    {siblings : Option Fields}
    (hpass : ((Rule.leaf kind a).check options name siblings (some value)).failures = []) :
    (Rule.leaf kind a).check options name siblings (some value) = .pass value := by
  have hsettled : (Rule.leaf kind {}).Settled value := .one h nofun
  rw [Rule.check, Attributes.apply_some (hsettled.not_allows hblanks) h.ne_null] at hpass ⊢
  rw [(Attributes.finish_of_passes hpass).1, h.check_eq]

/-- The rule of a stored choice leaves a valid submitted choice as it is. -/
theorem check_core_of_settled {value : Json} (h : (variant.formCore d list).Settled value)
    {required : Bool} {allow : List Json} (hblanks : Blanks allow) {name : String}
    {siblings : Option Fields}
    (hpass : (((Component.choice variant d list reveals).core.asked required allow).check {} name
      siblings (some value)).failures = []) :
    ((Component.choice variant d list reveals).core.asked required allow).check {} name siblings
      (some value) = .pass value := by
  rcases formCore_forms variant d list reveals with ⟨kind, a, a', hsort, hform, hcore⟩ |
    ⟨a, hvalid, hform, hcore⟩
  · rw [hform] at h
    rw [hcore] at hpass ⊢
    cases h with
    | one h _ => exact check_leaf_of_passes hblanks h hpass
  · rw [hform] at h
    rw [hcore]
    have hfield : (Rule.severalOf list.type.leaf list.values a).IsField :=
      .several list.type.leaf_ne_any hvalid
    refine Rule.Settled.check_eq ((Rule.isField_asked required allow _).mpr hfield) ?_
      ((Rule.settled_asked required allow _).mpr h) {} name siblings
    rw [Rule.attributes_asked]
    exact hblanks

end

end Questionnaire
