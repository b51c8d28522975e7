import Questionnaire.Component.Display
import Questionnaire.Component.View
import Questionnaire.Proofs.Component.Refilling

/-!
# What is displayed and what is ticked

The answer of a field that chooses from a list is read in three ways: its rule compares it with the
values of the list, the summary shows the texts of the items it picks, and the page ticks items by
the form data made of it. All three agree (`choice_shown`), as long as the form data under
the field's name is the field's own: a field that an item reveals may write the same input.
-/

namespace Questionnaire

/-! ## What an answer picks -/

/-- The values of a choice: the items of an array, or the one value. -/
def Json.chosen : Json → List Json
  | .arr items => items
  | value => [value]

theorem Json.selects_iff {value item : Json} :
    value.selects item = true ↔ ∃ x ∈ value.chosen, item.looseEq x = true := by
  cases value <;> simp [selects, chosen, looseEq_comm item]

namespace Leaf.Settled

variable {kind : Leaf} {value : Json}

/-- A value that a leaf leaves alone is the same as no other value. -/
theorem same_iff (hkind : kind ≠ .any) (h : kind.Settled value) {item : Json} :
    value.same item = true ↔ item = value := by
  constructor
  · intro hsame
    cases kind with
    | any => exact absurd rfl hkind
    | number c =>
        obtain ⟨x, rfl, -⟩ := h.eq_num
        by_cases hwhole : Leaf.KeptWhole x
        · rw [Leaf.numberValue_of_keptWhole hwhole] at hsame ⊢
          cases item with
          | num n => cases n <;> simp_all [Json.same, Json.unsignedZero, Number.unsignedZero]
          | _ => simp [Json.same, Json.unsignedZero] at hsame
        · -- A number that is no integer is not zero, so its sign is not lost.
          have hpos := Binary64.units_pos_of_not_keptWhole hwhole
          rw [Leaf.numberValue_of_not_keptWhole hwhole] at hsame ⊢
          cases item with
          | num n =>
              cases n with
              | int i hi => simp [Json.same, Json.unsignedZero, Number.unsignedZero] at hsame
              | float y =>
                  simp only [Json.same, Json.unsignedZero, Number.unsignedZero,
                    Binary64.unsignedZero_of_pos hpos, decide_eq_true_eq, Json.num.injEq,
                    Number.float.injEq] at hsame
                  have hy : 0 < y.units := by
                    rw [← y.unsignedZero_sameValue.units_eq, ← hsame]
                    exact hpos
                  rw [hsame, Binary64.unsignedZero_of_pos hy]
          | _ => simp [Json.same, Json.unsignedZero] at hsame
    | boolean =>
        obtain ⟨b, rfl⟩ := h.eq_bool
        cases item <;> simp_all [Json.same, Json.unsignedZero]
    | text c =>
        obtain ⟨s, rfl⟩ := h.eq_str
        exact same_str_iff.mp hsame
    | date =>
        obtain ⟨s, rfl, -⟩ := @Leaf.Settled.eq_date false _ h
        exact same_str_iff.mp hsame
    | dateTime =>
        obtain ⟨s, rfl, -⟩ := @Leaf.Settled.eq_date true _ h
        exact same_str_iff.mp hsame
  · rintro rfl
    exact Json.same_refl _

/-- The text by which a value is submitted picks what the value picks. -/
theorem looseEq_formText_iff (hkind : kind ≠ .any) (h : kind.Settled value) {item : Json} :
    (Json.str value.formText).looseEq item = true ↔ value.looseEq item = true := by
  have hscalar := h.isScalar hkind
  rw [Json.looseEq, Json.looseEq, Bool.or_eq_true, Bool.or_eq_true, same_str_iff, h.same_iff hkind,
    hscalar]
  constructor
  · rintro (rfl | hloose)
    · exact .inr (beq_self_eq_true value.formText)
    · exact .inr hloose
  · rintro (rfl | hloose)
    · right
      rw [hscalar]
      exact beq_self_eq_true item.formText
    · exact .inr hloose

end Leaf.Settled

/-! ## Choices that the rule accepts -/

section

variable {variant : ChoiceVariant} {d : ComponentDefinition} {list : ListDefinition}
  {reveals : List (Nat × Json × List Component)} {value : Json}

/-- What a stored choice picks are values of the list, which the kind of the list leaves alone. -/
theorem Component.settled_of_mem_chosen
    (h : (Component.choice variant d list reveals).core.Settled value) :
    ∀ x ∈ value.chosen, (∃ kind, kind ≠ .any ∧ Leaf.Settled kind x) ∧
      list.values.any (·.looseEq x) = true := by
  have hsingle {kind : Leaf} {x : Json} (hkind : kind ≠ .any) (hx : kind.Settled x)
      (hamong : list.values.any (·.looseEq x) = true) :
      ∀ y ∈ x.chosen, (∃ kind, kind ≠ .any ∧ Leaf.Settled kind y) ∧
        list.values.any (·.looseEq y) = true := by
    have hscalar := hx.isScalar hkind
    intro y hy
    cases x with
    | arr items => cases hscalar
    | _ =>
        obtain rfl := List.mem_singleton.mp hy
        exact ⟨⟨kind, hkind, hx⟩, hamong⟩
  have hone (h : ((described d list.type.base).among list.values).Settled value) :
      ∀ y ∈ value.chosen, (∃ kind, kind ≠ .any ∧ Leaf.Settled kind y) ∧
        list.values.any (·.looseEq y) = true := by
    obtain ⟨kind, a, hdescribed, hsort, -⟩ := described_leaf d list.type.leaf {}
    rw [list.type.base_eq_leaf, hdescribed] at h
    cases h with
    | one h hvalid =>
        exact hsingle (Leaf.ne_any_of_sort hsort list.type.leaf_ne_any) h (hvalid _ rfl)
  cases variant with
  | checkboxes =>
      obtain ⟨a, hdescribed, -⟩ := described_alternatives d
        [list.type.base.among list.values, .arrayOf (list.type.base.among list.values)] {}
      change (described d (oneOrMore list)).Settled value at h
      rw [oneOrMore, Rule.oneOf, hdescribed, list.type.base_eq_leaf] at h
      cases h with
      | single h hamong => exact hsingle list.type.leaf_ne_any h hamong
      | many h => exact fun x hx => ⟨⟨_, list.type.leaf_ne_any, (h x hx).1⟩, (h x hx).2⟩
  | _ => exact hone h

/-- The form data of a choice picks what the choice picks. -/
theorem Component.selects_choiceForm_iff
    (h : (Component.choice variant d list reveals).core.Settled value) {item : Json} :
    (choiceForm value).selects item = true ↔ value.selects item = true := by
  have hchosen := Component.settled_of_mem_chosen h
  cases value with
  | arr items =>
      simp only [choiceForm, Json.selects, List.any_map, List.any_eq_true, Function.comp_apply]
      refine exists_congr fun x => and_congr_right fun hx => ?_
      obtain ⟨⟨kind, hkind, hsettled⟩, -⟩ := hchosen x hx
      exact hsettled.looseEq_formText_iff hkind
  | _ =>
      obtain ⟨⟨kind, hkind, hsettled⟩, -⟩ := hchosen _ (List.mem_singleton_self _)
      exact hsettled.looseEq_formText_iff hkind

variable (reveals) in
/-- What the rule of a choice makes of a value is left alone by the rule. -/
theorem Component.settled_of_validate_choice (hallow : d.constraints.allow = none) {given : Json}
    (hnull : given ≠ .null) (hvalid : (variant.stateRule d list).validate {} given = .ok value) :
    (Component.choice variant d list reveals).core.Settled value := by
  have htakes := Rule.validate_eq_ok_iff.mp hvalid
  have hne := htakes.ne_null hnull
  have hcore := isField_core (c := .choice variant d list reveals) rfl hallow
  rw [show variant.stateRule d list = (Component.choice variant d list reveals).ownState from rfl,
    ownState_eq_asked (c := .choice variant d list reveals) rfl hallow] at htakes
  obtain ⟨converted, hcheck, hcases⟩ :=
    Rule.settled_or_mem_of_check ((Rule.isField_asked ..).mpr hcore)
      (by rw [Rule.attributes_asked]; exact blanks_welcome (.inl rfl) _)
      (congrArg Checked.failures htakes)
  cases hcheck.symm.trans htakes
  rw [Rule.attributes_asked, Rule.settled_asked] at hcases
  -- Only null could be welcome, and it is made of nothing else.
  exact hcases.resolve_left fun hmem => hne (mem_welcome_iff.mp hmem).1

end

/-! ## What is shown -/

/-- The text of the first item of a list whose value is loosely equal to a value. -/
def ListDefinition.FirstText (list : ListDefinition) (value : Json) (text : String) : Prop :=
  ∃ before item after, list.items = before ++ item :: after ∧ item.text = text ∧
    item.value.looseEq value = true ∧ ∀ other ∈ before, other.value.looseEq value = false

theorem ListDefinition.firstText_iff {list : ListDefinition} {value : Json} {text : String} :
    list.FirstText value text ↔ list.itemText? value = some text := by
  rw [itemText?, Option.map_eq_some_iff]
  simp only [List.find?_eq_some_iff_append, FirstText]
  constructor
  · rintro ⟨before, item, after, hitems, htext, hloose, hbefore⟩
    refine ⟨item, ⟨hloose, before, after, hitems, fun other hother => ?_⟩, htext⟩
    simp [hbefore other hother]
  · rintro ⟨item, ⟨hloose, before, after, hitems, hbefore⟩, htext⟩
    refine ⟨before, item, after, hitems, htext, hloose, fun other hother => ?_⟩
    simpa using hbefore other hother

theorem ListDefinition.exists_itemText? {list : ListDefinition} {value : Json}
    (h : list.values.any (·.looseEq value) = true) : ∃ text, list.itemText? value = some text := by
  obtain ⟨_, hvalue, hloose⟩ := List.any_eq_true.mp h
  obtain ⟨item, hitem, rfl⟩ := List.mem_map.mp hvalue
  obtain ⟨first, hfirst⟩ := Option.isSome_iff_exists.mp
    ((List.find?_isSome (p := (·.value.looseEq value))).mpr ⟨item, hitem, hloose⟩)
  exact ⟨first.text, by rw [itemText?, hfirst]; rfl⟩

/-- A choice among the values of a list is shown by the texts of all that it picks. -/
theorem displayChoice_eq {list : ListDefinition} {value : Json}
    (h : ∀ x ∈ value.chosen, list.values.any (·.looseEq x) = true) :
    ∃ texts, displayChoice list (some value) = String.intercalate ", " texts ∧
      List.Forall₂ list.FirstText value.chosen texts := by
  have hall : ∀ {items : List Json}, (∀ x ∈ items, list.values.any (·.looseEq x) = true) →
      List.Forall₂ list.FirstText items (items.filterMap list.itemText?) := by
    intro items
    induction items with
    | nil => exact fun _ => .nil
    | cons x rest ih =>
        intro hitems
        obtain ⟨hx, hrest⟩ := List.forall_mem_cons.mp hitems
        obtain ⟨text, htext⟩ := ListDefinition.exists_itemText? hx
        rw [List.filterMap_cons_some htext]
        exact .cons (ListDefinition.firstText_iff.mpr htext) (ih hrest)
  have htexts := hall h
  cases value with
  | arr items => exact ⟨_, rfl, htexts⟩
  | _ =>
      obtain ⟨text, htext⟩ := ListDefinition.exists_itemText? (h _ (List.mem_singleton_self _))
      refine ⟨_, ?_, htexts⟩
      simp only [displayChoice, Json.chosen, htext, List.filterMap_cons_some htext]
      rfl

/-! ## What is ticked -/

/-- How the option of an item is shown for an answer: with the item's text and value, and ticked
when the answer picks the item. -/
structure ShowsItem (answer : Json) (item : ListItem) (option : ItemView) : Prop where
  text_eq : option.text = item.text
  value_eq : option.value = item.value
  checked_iff : option.checked = true ↔ ∃ x ∈ answer.chosen, item.value.looseEq x = true

theorem forall₂_choiceItems {d : ComponentDefinition} {list : ListDefinition}
    {selected answer : Json} (h : ∀ item, selected.selects item = true ↔ answer.selects item = true)
    (revealed : Nat → List ComponentView) :
    List.Forall₂ (fun item option => ShowsItem answer item option.1) list.items
      (choiceItems d list selected revealed) := by
  rw [← List.zipIdx_map_fst 0 list.items, choiceItems, List.forall₂_map_left_iff,
    List.forall₂_map_right_iff, List.forall₂_same]
  exact fun entry _ => ⟨rfl, rfl, (h entry.1.value).trans Json.selects_iff⟩

/-- Only a select has an option before those of its items, which is ticked when no other is. -/
theorem ChoiceVariant.exists_blank (variant : ChoiceVariant)
    (options : List (ItemView × List ComponentView)) :
    ∃ blank, variant.items options = blank ++ options ∧ (variant ≠ .select → blank = []) ∧
      (variant = .select → ∃ option, blank = [(option, [])] ∧ option.value = .str "" ∧
        (option.checked = true ↔ ∀ other ∈ options, other.1.checked = false)) := by
  by_cases hselect : variant = .select
  · refine ⟨[(blankItem options, [])], if_pos hselect, fun hne => absurd hselect hne, fun _ => ?_⟩
    exact ⟨_, rfl, rfl, by simp [blankItem]⟩
  · exact ⟨[], if_neg hselect, fun _ => rfl, fun h => absurd h hselect⟩

/-- What a field that chooses from a list has stored is displayed by the texts of the items that it
picks, none left out, and these are the items that are ticked when the page is filled with it; the
blank item of a select is ticked when no other is. No other field may answer under an input of the
chooser's name. -/
theorem choice_shown {variant : ChoiceVariant} {d : ComponentDefinition}
    {list : ListDefinition} {reveals : List (Nat × Json × List Component)} {behind : List Reveal}
    {components : List Component}
    (hmem : ⟨.choice variant d list reveals, behind⟩ ∈ questions components)
    (hallow : d.constraints.allow = none) {value stored : Json} (hnull : value ≠ .null)
    (hvalid : (variant.stateRule d list).validate {} value = .ok stored) {state : State}
    (hstate : state.get? d.nameText = some stored)
    (hsole : ∀ q ∈ questions components, d.nameText ∈ Side.form.names q →
      q = ⟨.choice variant d list reveals, behind⟩ ∨ state.get? q.name = none)
    (errors : Option ErrorSummary) :
    (∃ texts, (Component.choice variant d list reveals).display state =
        String.intercalate ", " texts ∧ List.Forall₂ list.FirstText stored.chosen texts) ∧
      ∃ field blank options,
        (Component.choice variant d list reveals).view (toForm components state) errors =
          .mk d.type true field (blank ++ options) [] ∧
        List.Forall₂ (fun item option => ShowsItem stored item option.1) list.items options ∧
        (variant ≠ .select → blank = []) ∧
        (variant = .select → ∃ option, blank = [(option, [])] ∧ option.value = .str "" ∧
          (option.checked = true ↔ ∀ other ∈ options, other.1.checked = false)) := by
  have hsettled := Component.settled_of_validate_choice reveals hallow hnull hvalid
  have hname : (Component.choice variant d list reveals).name = d.nameText := rfl
  have hdata : (toForm components state).get? d.nameText = some (choiceForm stored) := by
    rw [get?_toForm_of_answered hmem hsole, Component.ownForm, hstate]
    exact Component.get?_answer _ _
  constructor
  · simp only [Component.display, hname, hstate]
    exact displayChoice_eq fun x hx => (Component.settled_of_mem_chosen hsettled x hx).2
  · have hpicks (item : Json) :
        (choiceForm stored).selects item = true ↔ stored.selects item = true :=
      Component.selects_choiceForm_iff hsettled
    rw [Component.view, hdata, Option.getD_some]
    obtain ⟨blank, hitems, hblank⟩ :=
      variant.exists_blank (choiceItems d list (choiceForm stored) _)
    rw [hitems]
    exact ⟨_, blank, _, rfl, forall₂_choiceItems hpicks _, hblank⟩

/-! ## Means of transport -/

/-- The line of a train. -/
def trainLineField : Component :=
  .single (.text .line) { type := "TextField", name := some "line", title := some "Line" }

/-- Means of transport. -/
def transportList : ListDefinition :=
  { name := "transport", title := "Transport", type := .string,
    items := [{ text := "Rail", value := .str "rail" }, { text := "Road", value := .str "road" }] }

/-- The means that are used, and for a train its line. -/
def transportField : Component :=
  .choice .checkboxes { type := "CheckboxesField", name := some "transport" } transportList
    [(0, .str "rail", [trainLineField])]

/-- Who travels by road, and once took a train. -/
def roadState : State := [("line", .str "Jubilee"), ("transport", .arr [.str "road"])]

theorem questions_transportField : questions [transportField] =
    [⟨transportField, []⟩, ⟨trainLineField, [⟨"transport", .string, .str "rail"⟩]⟩] := rfl

/-- The road is displayed and ticked, the railway is not. -/
theorem choice_shown_transport :
    transportField.display roadState = "Road" ∧
      ∃ field options, transportField.view (toForm [transportField] roadState) none =
          .mk "CheckboxesField" true field options [] ∧
        options.map (·.1.checked) = [false, true] := by
  have hmem : ⟨transportField, []⟩ ∈ questions [transportField] := List.mem_cons_self ..
  have hvalid : (ChoiceVariant.checkboxes.stateRule transportField.definition
      transportList).validate {} (.arr [.str " road "]) = .ok (.arr [.str "road"]) := by
    decide +kernel
  have hstate : roadState.get? transportField.definition.nameText = some (.arr [.str "road"]) := by
    decide +kernel
  have hsole : ∀ q ∈ questions [transportField],
      transportField.definition.nameText ∈ Side.form.names q →
        q = ⟨transportField, []⟩ ∨ roadState.get? q.name = none := by
    rw [questions_transportField, List.forall_mem_cons, List.forall_mem_singleton]
    exact ⟨fun _ => .inl rfl, fun hkey => absurd hkey (by decide +kernel)⟩
  have hnull : Json.arr [.str " road "] ≠ .null := nofun
  obtain ⟨⟨texts, hdisplay, htexts⟩, field, blank, options, hview, hoptions, hblank, -⟩ :=
    choice_shown hmem rfl hnull hvalid hstate hsole none
  rw [hblank nofun, List.nil_append] at hview
  refine ⟨?_, field, options, hview, ?_⟩
  · cases htexts with
    | cons hfirst hrest =>
        cases hrest
        have htext : transportList.itemText? (.str "road") = some "Road" := by decide +kernel
        cases htext.symm.trans (ListDefinition.firstText_iff.mp hfirst)
        exact hdisplay
  · cases hoptions with
    | cons hrail hrest =>
        cases hrest with
        | cons hroad hnone =>
            cases hnone
            have hunticked := hrail.checked_iff.not.mpr (by decide +kernel)
            have hticked := hroad.checked_iff.mpr (by decide +kernel)
            simp [hunticked, hticked]

end Questionnaire
