import Questionnaire.Proofs.Component.Stored
import Questionnaire.Proofs.Page.Consistency

/-!
# Pages whose names are distinct

Where no two answers and no two inputs of a page have one name (`Page.Distinct`), each rule of the
page is the rule of one field. Valid submitted data holds for an input nothing, the blank, or a value
that the input's rule leaves alone (`input_cases`), and the rules for the state leave the answers
made of it as they are (`get?_answers`).
-/

namespace Questionnaire

/-- Fields of built-in types that welcome no values of their own, with names of their own for all
answers and for all inputs. -/
structure Page.Distinct (page : Page) : Prop where
  builtin : ∀ q ∈ questions page.components, q.field.IsBuiltinField = true
  allow : ∀ q ∈ questions page.components, q.field.definition.constraints.allow = none
  names : (stateNames page.components).Nodup
  inputs : (formNames page.components).Nodup

namespace Component

/-- The rule of an input has one of the forms that the rule of a field has. -/
theorem isField_input {c : Component} (hfield : c.IsBuiltinField = true) :
    ∀ input ∈ c.inputs, input.core.IsField := by
  have hdescribed : ∀ {d : ComponentDefinition} {base : Rule},
      base.IsBase → (described d base).IsField := by
    rintro d _ ⟨kind, rfl, hkind⟩
    exact isField_described_leaf d hkind {}
  intro input hinput
  cases c with
  | single kind d =>
      cases kind with
      | text variant =>
          obtain rfl := List.mem_singleton.mp hinput
          exact hdescribed variant.isBase_base
      | date withTime =>
          obtain rfl := List.mem_singleton.mp hinput
          exact hdescribed (isBase_dateBase withTime)
      | dateParts withTime =>
          obtain ⟨part, -, rfl⟩ := List.mem_map.mp hinput
          have hkind : part.leaf ≠ .any := by rintro ⟨⟩
          exact .one hkind
      | address =>
          obtain ⟨part, -, rfl⟩ := List.mem_map.mp hinput
          obtain ⟨c, hc, -⟩ := part.leaf_eq_text
          have hkind : part.leaf ≠ .any := by
            rw [hc]
            rintro ⟨⟩
          exact .one hkind
      | content _ => cases hfield
      | plain => cases hfield
  | choice variant d list reveals =>
      obtain rfl := List.mem_singleton.mp hinput
      rcases formCore_forms variant d list reveals with ⟨kind, a, -, hsort, hform, -⟩ |
        ⟨a, hvalid, hform, -⟩
      · show (variant.formCore d list).IsField
        rw [hform]
        exact .one (Leaf.ne_any_of_sort hsort list.type.leaf_ne_any)
      · show (variant.formCore d list).IsField
        rw [hform]
        exact .several list.type.leaf_ne_any hvalid

/-- A field of whose inputs nothing is submitted stores null. -/
theorem stored_nil {c : Component} (hfield : c.IsBuiltinField = true) : c.stored [] = .null := by
  cases c with
  | single kind d =>
      cases kind with
      | text variant => rfl
      | date withTime => rfl
      | dateParts withTime => cases withTime <;> rfl
      | address => rfl
      | content _ => rfl
      | plain => cases hfield
  | choice variant d list reveals => rfl

end Component

namespace Page.Distinct

variable {page : Page} (hpage : page.Distinct) {q : Question}
  (hq : q ∈ questions page.components)

include hpage hq

/-! ## Inputs of a page -/

theorem sole : ∀ other ∈ questions page.components, other.name = q.name → other = q := by
  intro other hother hname
  exact List.inj_on_of_nodup_map hpage.names hother hq hname

theorem soleInput {key : String} (hkey : key ∈ Side.form.names q) :
    ∀ other ∈ questions page.components, key ∈ Side.form.names other → other = q := by
  intro other hother hkey'
  have hmem : key ∈ formNames page.components := List.mem_flatMap.mpr ⟨q, hq, hkey⟩
  exact eq_of_count_formNames (List.count_eq_one_of_mem hpage.inputs hmem) hq hkey hother hkey'

section

variable {input : Input} (hinput : input ∈ q.field.inputs)

include hinput

theorem mem_own : (input.name, input.rule) ∈ Side.form.own q.field := by
  rw [own_form (hpage.builtin q hq) (hpage.allow q hq)]
  exact List.mem_map_of_mem hinput

theorem mem_names : input.name ∈ Side.form.names q :=
  List.mem_map_of_mem (hpage.mem_own hq hinput)

/-- Valid submitted data holds for an input nothing unless the form asks for more, the blank where it
is welcome, or a value that the rule leaves alone. -/
theorem input_cases {payload data : FormData} (hdata : page.validateForm payload = .ok data) :
    (data.get? input.name = none ∧ mustBePresent q.behind input.isOptional payload = false) ∨
      (data.get? input.name = some (.str "") ∧
        welcomesBlank q.behind input.isOptional payload = true) ∨
      ∃ value, data.get? input.name = some value ∧ input.core.Settled value := by
  obtain ⟨haccepts, rfl⟩ := accepts_of_validateForm hdata
  rcases Side.converted_cases haccepts (Or.inr rfl) hq (hpage.mem_own hq hinput)
    (Component.isField_input (hpage.builtin q hq) input hinput)
    (hpage.soleInput hq (hpage.mem_names hq hinput)) with
    ⟨-, hnone, hmust⟩ | ⟨-, member, -, hmember, ⟨rfl, hblank⟩ | hsettled⟩
  · exact Or.inl ⟨hnone, hmust⟩
  · exact Or.inr (Or.inl ⟨hmember, hblank⟩)
  · exact Or.inr (Or.inr ⟨member, hmember, hsettled⟩)

end

/-! ## The answers of a submission -/

/-- The state made of submitted data has the answer to a question just when it is kept. -/
theorem get?_toState (data : FormData) :
    (page.toState data).get? q.name =
      if q.isKept data then some (q.field.stored data) else none :=
  Questionnaire.get?_toState data hq (hpage.sole hq)

section

variable {payload data : FormData} (hdata : page.validateForm payload = .ok data)

include hdata

/-- Valid submitted data holds for an input what its rule leaves alone. -/
theorem holds : ∀ input ∈ q.field.inputs, input.Holds data := by
  intro input hinput value hvalue
  rcases hpage.input_cases hq hinput hdata with ⟨hnone, -⟩ | ⟨hblank, -⟩ |
    ⟨member, hmember, hsettled⟩
  · rw [hnone] at hvalue
    cases hvalue
  · exact Or.inl (Option.some.inj (hvalue.symm.trans hblank))
  · exact Or.inr (Option.some.inj (hmember.symm.trans hvalue) ▸ hsettled)

/-- The rules for the state leave the answers made of a submission as they are. -/
theorem get?_answers {answers : State}
    (hanswers : page.validateState (page.toState data) = .ok answers) :
    answers.get? q.name = (page.toState data).get? q.name := by
  have hcore := isField_core (hpage.builtin q hq) (hpage.allow q hq)
  obtain ⟨hpass, hanswer⟩ := check_asked_of_validateState hanswers hq (hpage.sole hq)
    (hpage.builtin q hq) (hpage.allow q hq)
  have hstored := hpage.get?_toState hq data
  -- Either the field was kept and its answer is one that it left as it is, or it has no answer.
  rw [hanswer]
  rw [hstored] at hpass ⊢
  split at hpass
  · rw [if_pos ‹_›, Question.askedCore, Component.check_stored (hpage.builtin q hq)
      (hpage.allow q hq) (hpage.holds hq hdata) (blanks_welcome (Or.inl rfl) _) hpass]
    rfl
  · rw [if_neg ‹_›, (q.isField_askedCore _ hcore).check_none]
    split <;> rfl

end

end Page.Distinct

end Questionnaire
