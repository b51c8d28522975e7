import Questionnaire.Component.Display
import Questionnaire.Proofs.Component.Refilling
import Questionnaire.Proofs.Model.Rebuilding
import Questionnaire.Proofs.Model.Run
import Questionnaire.Proofs.Number.Exact

/-!
# Offered choices

Radios offer the items of their list, and what is submitted for an item is compared with the values
of the list only after it has been converted. So an item can be chosen when its value is one that the
conversion leaves alone (`Question.canChoose_of_settled`), and what is chosen is always such a value
(`Question.settled_of_canChoose`): no empty text, which stands for no answer, and none with blanks at
its ends.
-/

namespace Questionnaire

namespace Json

theorem looseEq_str_iff {s t : String} : (Json.str s).looseEq (.str t) = true ↔ s = t := by
  rw [looseEq, Bool.or_eq_true, same_str_iff, Json.str.injEq]
  show t = s ∨ (s == t) = true ↔ s = t
  rw [beq_iff_eq, eq_comm, or_self]

/-- Null counts as null alone. -/
theorem looseEq_null_iff {value : Json} : Json.null.looseEq value = true ↔ value = .null := by
  simp only [looseEq, isScalar, Bool.false_and, Bool.or_false, same_null_iff]

end Json

/-- The rule of radios without constraints, before it is asked. -/
def radiosCore (d : ComponentDefinition) (list : ListDefinition) : Rule :=
  .leaf list.type.leaf { label := d.title, valid := some list.values }

namespace Rule

/-- A rule of a field that takes null keeps it. -/
theorem IsField.eq_null_of_check {rule : Rule} (h : rule.IsField) {options : ValidationOptions}
    {name : String} {siblings : Option Fields} {answer : Json}
    (hcheck : rule.check options name siblings (some .null) = .pass answer) : answer = .null := by
  cases hallows : rule.attributes.allows .null with
  | true =>
      rw [h.check_allowed options name siblings hallows] at hcheck
      exact (Option.some.inj (congrArg Checked.value hcheck)).symm
  | false =>
      exact absurd (congrArg Checked.failures hcheck) (h.check_null options name siblings hallows)

end Rule

section

variable {d : ComponentDefinition} {list : ListDefinition} {required : Bool} {allow : List Json}

theorem isField_asked_radios : ((radiosCore d list).asked required allow).IsField :=
  (Rule.isField_asked ..).mpr (.one list.type.leaf_ne_any)

theorem blanks_asked_radios (h : Blanks allow) :
    Blanks ((radiosCore d list).asked required allow).attributes.allow := h

/-- However radios are asked for, they leave their values alone. -/
theorem check_asked_radios (h : Blanks allow) {value : Json} (hcore : (radiosCore d list).Settled value)
    (name : String) (siblings : Option Fields) :
    ((radiosCore d list).asked required allow).check {} name siblings (some value) = .pass value :=
  Rule.Settled.check_eq isField_asked_radios (blanks_asked_radios h)
    ((Rule.settled_asked ..).mpr hcore) {} name siblings

end

namespace Question

/-- An item can be chosen: the text that submits its value is taken by the form's rule, the value that
is stored of it is taken by the state's rule, and the answer counts as the item's value, whatever
else is submitted and stored. -/
def CanChoose (q : Question) (d : ComponentDefinition) (list : ListDefinition) (item : ListItem) :
    Prop :=
  ∀ payload state : Fields, ∃ member answer,
    (Side.form.behind q.behind (ChoiceVariant.radios.formRule d list)).check {} d.nameText
        (some payload) (some (.str item.value.formText)) = .pass member ∧
      (Side.state.behind q.behind (ChoiceVariant.radios.stateRule d list)).check {} d.nameText
        (some state) (some (storedChoice list.type (some member))) = .pass answer ∧
      answer.looseEq item.value = true ∧ (list.itemText? answer).isSome = true

variable {q : Question} {d : ComponentDefinition} {list : ListDefinition} {item : ListItem}

section

variable (h : d.constraints = {})
include h

theorem described_radios :
    (described d list.type.base).among list.values = radiosCore d list := by
  rw [list.type.base_eq_leaf, described_unconstrained h]
  rfl

/-- The form asks by the rule of the radios, however they come to be shown. -/
theorem check_form_radios (payload : Fields) (value : Option Json) :
    (Side.form.behind q.behind (ChoiceVariant.radios.formRule d list)).check {} d.nameText
        (some payload) value =
      ((radiosCore d list).asked (mustBePresent q.behind d.isOptional payload)
        (welcome (.str "") (welcomesBlank q.behind d.isOptional payload))).check {} d.nameText
          (some payload) value := by
  rw [ChoiceVariant.formRule_eq_asked _ (by rw [h]), ChoiceVariant.formCore, described_radios h]
  exact check_behind_asked ..

/-- So does the state. -/
theorem check_state_radios (state : Fields) (value : Option Json) :
    (Side.state.behind q.behind (ChoiceVariant.radios.stateRule d list)).check {} d.nameText
        (some state) value =
      ((radiosCore d list).asked (mustBePresent q.behind d.isOptional state)
        (welcome .null (welcomesBlank q.behind d.isOptional state))).check {} d.nameText
          (some state) value := by
  have hrule : ChoiceVariant.radios.stateRule d list =
      ((described d list.type.base).among list.values).asked (!d.isOptional)
        (welcome .null d.isOptional) :=
    ownState_eq_asked (c := .choice .radios d list []) rfl (congrArg AnswerConstraints.allow h)
  rw [hrule, described_radios h]
  exact check_behind_asked ..

/-- A value of the radios is stored as it is. -/
theorem storedChoice_radios {value : Json} (hcore : (radiosCore d list).Settled value) :
    storedChoice list.type (some value) = value := by
  have hform : (ChoiceVariant.radios.formCore d list).Settled value := by
    rw [ChoiceVariant.formCore, described_radios h]
    exact hcore
  exact storedChoice_of_settled hform

/-- An item whose value the conversion leaves alone can be chosen. -/
theorem canChoose_of_settled (hitem : item ∈ list.items)
    (hsettled : list.type.leaf.Settled item.value) : q.CanChoose d list item := by
  intro payload state
  have hamong : list.values.any (·.looseEq item.value) = true :=
    List.any_eq_true.mpr ⟨item.value, List.mem_map_of_mem hitem, Json.looseEq_refl _⟩
  have hcore : (radiosCore d list).Settled item.value :=
    .one hsettled fun choices hchoices => Option.some.inj hchoices ▸ hamong
  refine ⟨item.value, item.value, ?_, ?_, Json.looseEq_refl _, ?_⟩
  · rw [check_form_radios h]
    exact Rule.check_formText list.type.leaf_ne_any (blanks_welcome (.inr rfl) _)
      ((Rule.settled_asked ..).mpr hcore)
  · rw [check_state_radios h, storedChoice_radios h hcore]
    exact check_asked_radios (blanks_welcome (.inl rfl) _) hcore ..
  · rw [ListDefinition.itemText?, Option.isSome_map, List.find?_isSome]
    exact ⟨item, hitem, Json.looseEq_refl _⟩

/-- What is answered when an item is chosen is a value that the conversion leaves alone. -/
theorem settled_of_canChoose (hchoose : q.CanChoose d list item) (hscalar : item.value.isScalar = true) :
    ∃ answer, list.type.leaf.Settled answer ∧ answer.looseEq item.value = true := by
  obtain ⟨member, answer, hform, hstate, hanswer, -⟩ := hchoose [] []
  rw [check_form_radios h] at hform
  rw [check_state_radios h] at hstate
  obtain ⟨converted, hconverted, hcases⟩ := Rule.settled_or_mem_of_check isField_asked_radios
    (blanks_asked_radios (blanks_welcome (.inr rfl) _)) (congrArg Checked.failures hform)
  obtain rfl : member = converted :=
    Option.some.inj (congrArg Checked.value (hform.symm.trans hconverted))
  rw [Rule.settled_asked] at hcases
  rcases hcases with hmem | hcore
  · -- The blank is stored as null, and null is no item's value.
    obtain rfl : member = .str "" := (mem_welcome_iff.mp hmem).1
    obtain rfl : answer = .null := isField_asked_radios.eq_null_of_check hstate
    rw [Json.looseEq_null_iff.mp hanswer] at hscalar
    cases hscalar
  · rw [storedChoice_radios h hcore, check_asked_radios (blanks_welcome (.inl rfl) _) hcore] at hstate
    obtain rfl : member = answer := Option.some.inj (congrArg Checked.value hstate)
    cases hcore with
    | one hsettled _ => exact ⟨member, hsettled, hanswer⟩

end

/-- A text can be chosen when it is not empty and has no blanks at its ends. -/
theorem canChoose_text_iff (h : d.constraints = {}) (hitem : item ∈ list.items)
    (htype : list.type = .string) {s : String} (hvalue : item.value = .str s) :
    q.CanChoose d list item ↔ s ≠ "" ∧ Text.trim s = s := by
  constructor
  · intro hchoose
    obtain ⟨answer, hsettled, hanswer⟩ := settled_of_canChoose h hchoose (by rw [hvalue]; rfl)
    rw [htype] at hsettled
    obtain ⟨t, rfl⟩ := Leaf.Settled.eq_str hsettled
    rw [hvalue] at hanswer
    obtain rfl := Json.looseEq_str_iff.mp hanswer
    exact ⟨fun hempty => hsettled.ne_empty (congrArg Json.str hempty), hsettled.trim_eq rfl⟩
  · rintro ⟨hne, htrim⟩
    refine canChoose_of_settled h hitem ?_
    rw [htype, hvalue]
    exact Leaf.settled_text hne (if_pos rfl |>.trans htrim) rfl

end Question

namespace Model

variable {source : Json} {options : Options} {types : TypeRegistry} {model : Model} {page : Page}

/-- A field of a page chooses from a list of the model, and the values of that are of its type. -/
theorem admits_of_ofJson (h : Model.ofJson source options types = .ok model)
    (hpage : page ∈ model.pages) {q : Question} (hq : q ∈ questions page.components)
    {variant : ChoiceVariant} {d : ComponentDefinition} {list : ListDefinition}
    {reveals : List (Nat × Json × List Component)}
    (hfield : q.field = .choice variant d list reveals) :
    ∀ item ∈ list.items, list.type.admits item.value = true := by
  obtain ⟨definition, location, hcompile⟩ := (page_of_compile h).2 page hpage
  have hlist := listFrom_of_compileGroup (Page.compileGroup_of_compile hcompile) q hq
  rw [hfield] at hlist
  obtain ⟨form, hform, hmodel⟩ := exists_of_ofJson h
  change list ∈ model.definition.lists at hlist
  rw [definition_of_compile hmodel] at hlist
  exact fun item hitem => ((hform.withYesNo.lists list hlist).items item hitem).admits

/-- Which items of radios without constraints can be chosen. A text can just when it is not empty and
has no blanks at its ends; a truth value always can; an integer can when it is exact, and another
number when it has a fraction or is too large to be kept as an integer. -/
theorem offered_choice (h : Model.ofJson source options types = .ok model)
    (hpage : page ∈ model.pages) {q : Question} (hq : q ∈ questions page.components)
    {d : ComponentDefinition} {list : ListDefinition} {reveals : List (Nat × Json × List Component)}
    (hfield : q.field = .choice .radios d list reveals) (hconstraints : d.constraints = {})
    {item : ListItem} (hitem : item ∈ list.items) :
    match item.value with
    | .str s => q.CanChoose d list item ↔ s ≠ "" ∧ Text.trim s = s
    | .bool _ => q.CanChoose d list item
    | .num (.int i _) => IsExact i → q.CanChoose d list item
    | .num (.float x) => ¬ Leaf.KeptWhole x → q.CanChoose d list item
    | _ => False := by
  have hadmits := admits_of_ofJson h hpage hq hfield item hitem
  have hchoose := Question.canChoose_of_settled (q := q) hconstraints hitem
  cases htype : list.type with
  | string =>
      cases hvalue : item.value with
      | str s => exact Question.canChoose_text_iff hconstraints hitem htype hvalue
      | _ => simp [htype, hvalue, ListType.admits] at hadmits
  | number =>
      cases hvalue : item.value with
      | num n =>
          -- A number is left alone when it is what the number nearest to it is kept as.
          have hkept : Leaf.numberValue n.toBinary64 = .num n → q.CanChoose d list item := by
            intro hkept
            refine hchoose ?_
            rw [htype, hvalue, ← hkept]
            exact Leaf.settled_number rfl
          cases n with
          | int i hword => exact fun hexact => hkept ((Leaf.numberValue_toBinary64_iff hword).mpr hexact)
          | float x => exact fun hnot => hkept (Leaf.numberValue_of_not_keptWhole hnot)
      | _ => simp [htype, hvalue, ListType.admits] at hadmits
  | boolean =>
      cases hvalue : item.value with
      | bool b =>
          refine hchoose ?_
          rw [htype, hvalue]
          exact Leaf.settled_boolean b
      | _ => simp [htype, hvalue, ListType.admits] at hadmits

/-! ### Sizes -/

/-- The size of a parcel. -/
def sizeField : ComponentDefinition :=
  { type := "RadiosField", name := some "size", title := some "Size",
    options := { list := some "size" } }

/-- The sizes there are: one is written with blanks around it, and one is left empty. -/
def sizeList : ListDefinition :=
  { name := "size", title := "Size", type := .string,
    items := [{ text := "Any", value := .str "" }, { text := "Small", value := .str " small " },
      { text := "Large", value := .str "large" }] }

/-- The questionnaire that asks for it, as it is written. -/
def sizeSource : Json :=
  visitSource
    [.obj
      [("items", .arr
        [.obj [("text", .str "Any"), ("value", .str "")],
          .obj [("text", .str "Small"), ("value", .str " small ")],
          .obj [("text", .str "Large"), ("value", .str "large")]]),
        ("name", .str "size"), ("title", .str "Size"), ("type", .str "string")]]
    [fieldSource "RadiosField" "size" "Size" [("list", .str "size")]]

/-- The question for the size. -/
def sizeQuestion : Question := ⟨.choice .radios sizeField sizeList [], []⟩

theorem exists_page_size : ∃ page ∈ (compiled sizeSource).pages,
    sizeQuestion ∈ questions page.components := by
  have hpages : (compiled sizeSource).pages.map Page.components =
      [[.choice .radios sizeField sizeList []]] := by
    with_unfolding_all rfl
  obtain ⟨page, hpage, hcomponents⟩ := List.mem_map.mp (hpages ▸ List.mem_singleton_self _)
  exact ⟨page, hpage, hcomponents ▸ List.mem_singleton_self _⟩

/-- The large size can be chosen. -/
theorem offered_choice_size :
    ∃ page ∈ (compiled sizeSource).pages, sizeQuestion ∈ questions page.components ∧
      sizeQuestion.CanChoose sizeField sizeList { text := "Large", value := .str "large" } := by
  obtain ⟨page, hpage, hq⟩ := exists_page_size
  have hmodel : Model.ofJson sizeSource {} .builtin = .ok (compiled sizeSource) := by
    with_unfolding_all rfl
  have hiff := offered_choice hmodel hpage hq rfl rfl
    (.tail _ (.tail _ (.head _)) : (⟨"Large", .str "large", none, none⟩ : ListItem) ∈ sizeList.items)
  exact ⟨page, hpage, hq, hiff.mpr (by decide +kernel)⟩

/-- The size that is left empty and the one with blanks around it are offered and cannot be chosen. -/
theorem exists_offered_not_chosen :
    Model.ofJson sizeSource {} .builtin = .ok (compiled sizeSource) ∧
      ∃ page ∈ (compiled sizeSource).pages, ∃ q ∈ questions page.components, ∃ d list reveals,
        q.field = .choice .radios d list reveals ∧ d.constraints = {} ∧
        (∃ item ∈ list.items, item.value = .str "" ∧ ¬ q.CanChoose d list item) ∧
        ∃ item ∈ list.items, item.value = .str " small " ∧ ¬ q.CanChoose d list item := by
  obtain ⟨page, hpage, hq⟩ := exists_page_size
  refine ⟨by with_unfolding_all rfl, page, hpage, sizeQuestion, hq, sizeField, sizeList, [], rfl, rfl,
    ⟨_, .head _, rfl, ?_⟩, _, .tail _ (.head _), rfl, ?_⟩
  · rw [Question.canChoose_text_iff rfl (.head _) rfl rfl]
    decide
  · rw [Question.canChoose_text_iff rfl (.tail _ (.head _)) rfl rfl]
    decide +kernel

end Model

end Questionnaire
