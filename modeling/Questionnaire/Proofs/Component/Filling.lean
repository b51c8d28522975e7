import Questionnaire.Proofs.Component.Answers
import Questionnaire.Proofs.Component.Keys

/-!
# Filling a form

The data that submits stored answers, field by field. Each field writes its own inputs
(`Component.ownForm`) and no others, and of two fields that write one input the later stands
(`get?_toForm`). So an input that one field alone has holds what that field wrote
(`get?_toForm_of_sole`).
-/

namespace Questionnaire

/-- The data that submits a field's own answer, without what it reveals. -/
def Component.ownForm (state : State) : Component → FormData
  | .single kind d => kind.toForm d state
  | .choice _ d _ _ =>
    match state.get? d.nameText with
    | some value => answer d.nameText (choiceForm value)
    | none => []

/-! ## Order -/

theorem ordered_answer (name : String) (value : Json) : Fields.Ordered (answer name value) :=
  List.pairwise_singleton _ _

theorem SingleKind.ordered_toForm (state : State) (kind : SingleKind) (d : ComponentDefinition) :
    (kind.toForm d state).Ordered := by
  have hscalar : ∀ name, (scalarForm name state).Ordered := by
    intro name
    unfold scalarForm
    split
    · exact ordered_answer _ _
    · exact Fields.Ordered.nil
  cases kind with
  | text variant => exact hscalar _
  | plain => exact hscalar _
  | content variant => exact Fields.Ordered.nil
  | date withTime =>
      simp only [toForm]
      split
      · exact ordered_answer _ _
      · exact Fields.Ordered.nil
  | dateParts withTime =>
      simp only [toForm, datePartsForm]
      split
      · exact Fields.Ordered.nil
      · split
        · exact Fields.Ordered.nil
        · exact Fields.ordered_ofList _
  | address =>
      simp only [toForm, addressForm]
      split
      · exact Fields.ordered_ofList _
      · exact Fields.Ordered.nil

section

variable (state : State)

theorem Component.ordered_ownForm (c : Component) : (c.ownForm state).Ordered := by
  cases c with
  | single kind d => exact kind.ordered_toForm state d
  | choice variant d list reveals =>
      simp only [ownForm]
      split
      · exact ordered_answer _ _
      · exact Fields.Ordered.nil

theorem ordered_addToForm : ∀ (components : List Component) {data : FormData},
    data.Ordered → (addToForm state data components).Ordered
  | [], _, h => h
  | _ :: rest, _, h => ordered_addToForm rest (h.extend _)

theorem ordered_revealedToForm : ∀ (reveals : List (Nat × Json × List Component))
    {data : FormData}, data.Ordered → (revealedToForm state data reveals).Ordered
  | [], _, h => h
  | _ :: rest, _, h => ordered_revealedToForm rest (h.extend _)

theorem Component.toForm_choice (variant : ChoiceVariant) (d : ComponentDefinition)
    (list : ListDefinition) (reveals : List (Nat × Json × List Component)) :
    (Component.choice variant d list reveals).toForm state =
      revealedToForm state ((Component.choice variant d list reveals).ownForm state) reveals := rfl

theorem Component.ordered_toForm (c : Component) : (c.toForm state).Ordered := by
  cases c with
  | single kind d => exact kind.ordered_toForm state d
  | choice variant d list reveals =>
      rw [toForm_choice]
      exact ordered_revealedToForm state reveals (Component.ordered_ownForm state _)

/-! ## Looking up -/

theorem get?_addToForm_extend (key : String) : ∀ (components : List Component) (data : FormData),
    (addToForm state data components).get? key =
      ((addToForm state [] components).get? key).or (data.get? key)
  | [], _ => rfl
  | c :: rest, data => by
    have hordered := c.ordered_toForm state
    rw [addToForm, addToForm, get?_addToForm_extend key rest,
      get?_addToForm_extend key rest (Fields.extend [] _), Fields.get?_extend hordered,
      Fields.get?_extend hordered, Fields.get?_nil, Option.or_none, Option.or_assoc]

mutual

theorem Component.get?_toForm : ∀ (c : Component) (key : String),
    (c.toForm state).get? key =
      c.questions.reverse.findSome? fun q => (q.field.ownForm state).get? key
  | .single kind d, key => by
    cases kind with
    | content variant => rfl
    | _ => simp [Component.questions, Component.ownForm, Component.toForm]
  | .choice variant d list reveals, key => by
    rw [Component.toForm_choice, get?_revealedToForm reveals d.nameText list.type,
      Component.questions, List.reverse_cons, List.findSome?_append]
    simp

/-- Each input holds what the last field that writes it has written. -/
theorem get?_toForm : ∀ (components : List Component) (key : String),
    (addToForm state [] components).get? key =
      (questions components).reverse.findSome? fun q => (q.field.ownForm state).get? key
  | [], _ => rfl
  | c :: rest, key => by
    rw [addToForm, get?_addToForm_extend, Fields.get?_extend (c.ordered_toForm state),
      Fields.get?_nil, Option.or_none, get?_toForm rest, c.get?_toForm, questions,
      List.reverse_append, List.findSome?_append]

theorem get?_revealedToForm : ∀ (reveals : List (Nat × Json × List Component)) (chooser : String)
    (type : ListType) (data : FormData) (key : String),
    (revealedToForm state data reveals).get? key =
      ((revealedQuestions chooser type reveals).reverse.findSome? fun q =>
        (q.field.ownForm state).get? key).or (data.get? key)
  | [], _, _, _, _ => rfl
  | (i, item, components) :: rest, chooser, type, data, key => by
    have hordered := ordered_addToForm state components Fields.Ordered.nil
    rw [revealedToForm, get?_revealedToForm rest chooser type, Fields.get?_extend hordered,
      get?_toForm components, revealedQuestions, List.reverse_append, List.findSome?_append,
      ← List.map_reverse, List.findSome?_map, Option.or_assoc]
    rfl

end

end

/-! ## Inputs of one field -/

namespace Fields

theorem isSome_get?_extend {added : Fields} : ∀ {fields : Fields} {key : String},
    (fields.get? key).isSome = true ∨ (∃ value, (key, value) ∈ added) →
    ((fields.extend added).get? key).isSome = true := by
  induction added with
  | nil =>
      intro fields key h
      exact h.resolve_right fun ⟨_, hmem⟩ => nomatch hmem
  | cons first rest ih =>
      intro fields key h
      refine ih ?_
      rw [get?_insert]
      split
      · exact Or.inl rfl
      · next hne =>
        refine h.imp_right fun ⟨value, hmem⟩ => ⟨value, (List.mem_cons.mp hmem).resolve_left ?_⟩
        rintro rfl
        exact hne rfl

/-- A key that is given one value has it. -/
theorem get?_ofList_of_mem {members : List (String × Json)} (hmembers : (members.map (·.1)).Nodup)
    {key : String} {value : Json} (h : (key, value) ∈ members) :
    (ofList members).get? key = some value := by
  have hsome : ((Fields.extend [] members).get? key).isSome = true :=
    isSome_get?_extend (Or.inr ⟨value, h⟩)
  obtain ⟨other, hother⟩ := Option.isSome_iff_exists.mp hsome
  have hmem := mem_of_get?_ofList hother
  have hsame := List.inj_on_of_nodup_map hmembers h hmem rfl
  rw [(Prod.mk.inj hsame).2]
  exact hother

end Fields

theorem partName_injective (field : String) : Function.Injective (partName field) := by
  intro key other h
  simpa [partName] using h

/-- The rules of the parts of a field are those that its parts are given. -/
theorem ofList_parts {α : Type} {parts : List α} {key : α → String} (rule : α → Rule)
    (hkeys : (parts.map key).Nodup) (field : String) :
    Keys.ofList (parts.map fun part => (partName field (key part), rule part)) =
      parts.map fun part => (partName field (key part), rule part) := by
  refine Keys.ofList_of_nodup ?_
  have hnames := hkeys.map (partName_injective field)
  rw [List.map_map] at hnames
  rw [Keys.names, List.map_map]
  exact hnames

theorem nodup_datePartsOf (withTime : Bool) : ((datePartsOf withTime).map DatePart.key).Nodup := by
  cases withTime <;> decide

theorem nodup_addressParts : (addressParts.map AddressPart.key).Nodup := by
  decide

section

variable {state : State} {key : String} {value : Json}

theorem eq_of_get?_answer {name : String} {given : Json}
    (h : (answer name given).get? key = some value) : key = name ∧ value = given := by
  obtain ⟨rfl, rfl⟩ := Prod.mk.inj (List.mem_singleton.mp (Fields.mem_of_get? h))
  exact ⟨rfl, rfl⟩

theorem names_parts {α : Type} {parts : List α} {key : α → String} (rule : α → Rule)
    (hkeys : (parts.map key).Nodup) (field : String) :
    (Keys.ofList (parts.map fun part => (partName field (key part), rule part))).names =
      parts.map fun part => partName field (key part) := by
  rw [ofList_parts rule hkeys, Keys.names, List.map_map]
  rfl

/-- A field writes its own inputs only. -/
theorem mem_names_of_ownForm {c : Component} (h : (c.ownForm state).get? key = some value) :
    key ∈ (Side.form.own c).names := by
  have hscalar : ∀ {name : String}, (scalarForm name state).get? key = some value →
      key ∈ [name] := by
    intro name h
    unfold scalarForm at h
    split at h
    · exact List.mem_singleton.mpr (eq_of_get?_answer h).1
    · exact nomatch h
  cases c with
  | single kind d =>
      cases kind with
      | text variant => exact hscalar h
      | plain => exact hscalar h
      | content variant => exact nomatch h
      | date withTime =>
          simp only [Component.ownForm, SingleKind.toForm] at h
          split at h
          · exact List.mem_singleton.mpr (eq_of_get?_answer h).1
          · exact nomatch h
      | dateParts withTime =>
          show key ∈ (Keys.ofList _).names
          rw [names_parts _ (nodup_datePartsOf withTime)]
          simp only [Component.ownForm, SingleKind.toForm, datePartsForm] at h
          split at h
          · exact nomatch h
          · split at h
            · exact nomatch h
            · obtain ⟨⟨part, n⟩, hmem, heq⟩ := List.mem_map.mp (Fields.mem_of_get?_ofList h)
              obtain ⟨rfl, -⟩ := Prod.mk.inj heq
              exact List.mem_map_of_mem (List.of_mem_zip hmem).1
      | address =>
          show key ∈ (Keys.ofList _).names
          rw [names_parts _ nodup_addressParts]
          simp only [Component.ownForm, SingleKind.toForm, addressForm] at h
          split at h
          · obtain ⟨part, hmem, heq⟩ := List.mem_map.mp (Fields.mem_of_get?_ofList h)
            obtain ⟨rfl, -⟩ := Prod.mk.inj heq
            exact List.mem_map_of_mem hmem
          · exact nomatch h
  | choice variant d list reveals =>
      simp only [Component.ownForm] at h
      split at h
      · exact List.mem_singleton.mpr (eq_of_get?_answer h).1
      · exact nomatch h

/-- A field without an answer writes nothing. -/
theorem Component.ownForm_of_get?_eq_none {c : Component} (h : state.get? c.name = none) :
    c.ownForm state = [] := by
  cases c with
  | single kind d =>
      have hname : state.get? d.nameText = none := h
      cases kind <;>
        simp [ownForm, SingleKind.toForm, scalarForm, datePartsForm, addressForm, hname]
  | choice variant d list reveals =>
      have hname : state.get? d.nameText = none := h
      simp [ownForm, hname]

/-- An input holds what one field wrote, if no other field that has it has an answer. -/
theorem get?_toForm_of_answered {components : List Component} {q : Question}
    (hq : q ∈ questions components)
    (hsole : ∀ other ∈ questions components, key ∈ Side.form.names other →
      other = q ∨ state.get? other.name = none) :
    (toForm components state).get? key = (q.field.ownForm state).get? key := by
  rw [toForm, get?_toForm]
  cases hfound : (questions components).reverse.findSome? fun other =>
      (other.field.ownForm state).get? key with
  | none => exact (List.findSome?_eq_none_iff.mp hfound q (List.mem_reverse.mpr hq)).symm
  | some value =>
      obtain ⟨other, hother, hvalue⟩ := List.exists_of_findSome?_eq_some hfound
      rcases hsole other (List.mem_reverse.mp hother) (mem_names_of_ownForm hvalue) with
        rfl | hnone
      · exact hvalue.symm
      · rw [Component.ownForm_of_get?_eq_none hnone] at hvalue
        exact nomatch hvalue

/-- An input that one field alone has holds what that field wrote. -/
theorem get?_toForm_of_sole {components : List Component} {q : Question}
    (hq : q ∈ questions components)
    (hsole : ∀ other ∈ questions components, key ∈ Side.form.names other → other = q) :
    (toForm components state).get? key = (q.field.ownForm state).get? key :=
  get?_toForm_of_answered hq fun other hother hkey => .inl (hsole other hother hkey)

end

end Questionnaire
