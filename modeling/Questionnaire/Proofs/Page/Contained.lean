import Questionnaire.Proofs.Component.Places
import Questionnaire.Proofs.Component.SharedNames
import Questionnaire.Proofs.Page.Storing
import Questionnaire.Proofs.Rule.Relaxing

/-!
# Conversions and the rules by key

What a page converts lies under keys that its rules know: the state made of submitted data under
keys of the state, with an answer for each of its own fields, and the data that submits stored
answers under keys of the form. So a submission fails for no member that is unknown
(`Page.conversions_contained`), unless it is one inside an object that the rule of an address has to
check: an object that another field of the address's name was given, and welcomes as it is. Such
fields are accepted on one page, since they have no input in common (`exists_unknown_refused`).
-/

namespace Questionnaire

/-! ## Members without a rule -/

namespace Rule

variable {options : ValidationOptions} {name : String} {siblings : Option Fields}
  {value : Option Json} {failure : Failure}

/-- Of several choices none is looked inside for members. -/
theorem fault_ne_unknownKey_of_severalOf {kind : Leaf} {choices : List Json} {a : Attributes} :
    ∀ failure ∈ ((severalOf kind choices a).check options name siblings value).failures,
      failure.fault ≠ .unknownKey := by
  intro failure h hunknown
  rw [severalOf, check] at h
  obtain ⟨given, -, -, h⟩ := Attributes.exists_of_unknownKey (by decide) h hunknown
  rcases mem_checkAlternatives h with rfl | ⟨failures, hnone, -⟩ | ⟨rule, hrule, h⟩
  · cases hunknown
  · cases hnone
  · rcases List.mem_pair.mp hrule with rfl | rfl
    · exact fault_ne_unknownKey_of_leaf failure h hunknown
    · rw [check] at h
      obtain ⟨items, -, -, h⟩ := Attributes.exists_of_unknownKey (by decide) h hunknown
      split at h
      · obtain ⟨checked, hchecked, h⟩ := List.mem_flatMap.mp h
        obtain ⟨⟨item, i⟩, -, rfl⟩ := List.mem_map.mp hchecked
        obtain ⟨inner, hinner, rfl⟩ := List.mem_map.mp h
        exact fault_ne_unknownKey_of_leaf inner hinner hunknown
      · obtain rfl := List.mem_singleton.mp h
        cases hunknown

/-- The rule of a field finds members unknown in an object only, and not if all of the object's
members have rules. -/
theorem IsField.exists_obj_of_unknownKey {rule : Rule} (hrule : rule.IsField)
    (h : failure ∈ (rule.check options name siblings value).failures)
    (hunknown : failure.fault = .unknownKey) :
    ∃ keys fields, rule.objectKeys? = some keys ∧ value = some (.obj fields) ∧
      (∃ member, failure.path = [member]) ∧ ¬ ∀ member ∈ fields, keys.has member.1 = true := by
  cases hrule with
  | one _ => exact absurd hunknown (fault_ne_unknownKey_of_leaf failure h)
  | several _ _ => exact absurd hunknown (fault_ne_unknownKey_of_severalOf failure h)
  | @members keys a hnodup hparts hvalid =>
      obtain ⟨fields, rfl, hallows⟩ := Rule.exists_obj_of_unknownKey h hunknown
      rw [check_object hallows hvalid] at h
      rcases List.mem_append.mp h with h | h
      · obtain ⟨key, part, hpart, inner, hinner, rfl⟩ := exists_of_mem_checkKeys h
        cases part with
        | leaf kind a => exact absurd hunknown (fault_ne_unknownKey_of_leaf inner hinner)
        | _ => exact (hparts _ hpart).elim
      · refine ⟨keys, fields, rfl, rfl, ?_, fun hknown => ?_⟩
        · obtain ⟨member, rfl⟩ := eq_of_mem_checkUnknown h
          exact ⟨member, rfl⟩
        · rw [checkUnknown_of_has hknown] at h
          exact nomatch h

end Rule

theorem has_of_mem_addressFields (d : ComponentDefinition) (name : String) (data : FormData) :
    ∀ member ∈ addressFields name data, (addressKeys d).has member.1 = true := by
  intro member hmember
  have haddress := isAddress_addressFields name data
  have hsome := congrArg Option.isSome (haddress.ordered.get?_of_mem hmember)
  obtain ⟨part, hpart, hkey⟩ := (haddress.isSome_iff member.1).mp hsome
  rw [Keys.has_iff_mem_names, addressKeys_eq, Keys.names, List.map_map, ← hkey]
  exact List.mem_map_of_mem hpart

/-! ## Fields that welcome objects -/

/-- A rule of an input that welcomes objects is that of a field with one input, under its name. -/
theorem entry_eq_whole_of_not_welcomesNoObject {c : Component} (hfield : c.IsBuiltinField = true)
    {key : String} {own : Rule} (hown : (key, own) ∈ Side.form.own c)
    (hwelcomes : ¬ own.WelcomesNoObject) :
    c.name = key ∧ c.entry = .whole ∧ ¬ c.definition.WelcomesNoObject := by
  have hdefinition : ¬ c.definition.WelcomesNoObject :=
    fun hd => hwelcomes (welcomesNoObject_own_form hfield hd hown)
  cases c with
  | single kind d =>
      cases kind with
      | dateParts withTime =>
          obtain ⟨part, -, heq⟩ := List.mem_map.mp (Keys.mem_ofList hown)
          cases heq
          exact absurd (part.welcomesNoObject_rule d) hwelcomes
      | address =>
          obtain ⟨part, -, heq⟩ := List.mem_map.mp (Keys.mem_ofList hown)
          cases heq
          exact absurd (part.welcomesNoObject_rule d) hwelcomes
      | content _ => cases hfield
      | plain => cases hfield
      | _ => exact ⟨(Prod.mk.inj (List.mem_singleton.mp hown)).1.symm, rfl, hdefinition⟩
  | choice variant d list reveals =>
      exact ⟨(Prod.mk.inj (List.mem_singleton.mp hown)).1.symm, rfl, hdefinition⟩

/-! ## Keys of conversions -/

section

variable {components : List Component}

theorem Component.isSome_get?_name {c : Component} (hform : c.isForm = true) (payload : FormData) :
    ((c.toState payload).get? c.name).isSome = true := by
  cases c with
  | single kind d =>
      cases kind with
      | content _ => cases hform
      | _ =>
          show (Fields.get? [(d.nameText, _)] d.nameText).isSome = true
          rw [Fields.get?_cons, if_pos rfl]
          rfl
  | choice variant d list reveals =>
      show ((Fields.insert d.nameText _ _).get? d.nameText).isSome = true
      rw [Fields.get?_insert, if_pos rfl]
      rfl

/-- The state made of submitted data has an answer for each field of the group itself. -/
theorem isSome_get?_toState (payload : FormData) {c : Component} (hc : c ∈ formComponents components) :
    ((toState components payload).get? c.name).isSome = true := by
  rw [formComponents, List.mem_filter] at hc
  obtain ⟨hc, hform⟩ := hc
  rw [toState]
  induction components with
  | nil => cases hc
  | cons first rest ih =>
      rw [get?_addToState_cons, Option.isSome_or, Bool.or_eq_true]
      rcases List.mem_cons.mp hc with rfl | hc
      · exact .inr (Component.isSome_get?_name hform payload)
      · exact .inl (ih hc)

/-- The data that submits stored answers lies under keys of the form. -/
theorem mem_formKeys_of_mem_toForm {state : State} {member : String × Json}
    (h : member ∈ toForm components state) : member.1 ∈ (formKeys components).names := by
  have hordered : (toForm components state).Ordered :=
    ordered_addToForm state components Fields.Ordered.nil
  have hvalue := hordered.get?_of_mem h
  rw [toForm, get?_toForm] at hvalue
  obtain ⟨q, hq, hown⟩ := List.exists_of_findSome?_eq_some hvalue
  rw [← Side.groupKeys_form, Side.mem_names_groupKeys_iff]
  exact ⟨q, List.mem_reverse.mp hq, mem_names_of_ownForm hown⟩

end

/-! ## Submissions -/

namespace Page

variable {page : Page} (hfields : ∀ q ∈ questions page.components, q.field.IsBuiltinField = true)

include hfields

/-- A member that the check of a page's part of the state finds unknown lies in the answer to a
question for an address, if the part itself has no unknown key. -/
theorem exists_address_of_unknownKey {state : State}
    (hknown : ∀ member ∈ state, (Side.state.groupKeys page.components).has member.1 = true)
    {summary : ErrorSummary} (h : page.validateState state = .error summary) {failure : Failure}
    (hmem : failure ∈ summary.failures) (hunknown : failure.fault = .unknownKey) :
    ∃ q ∈ questions page.components, ∃ d fields, q.field = .single .address d ∧
      state.get? q.name = some (.obj fields) ∧ (∃ member, failure.path = [q.name, member]) ∧
      ¬ ∀ member ∈ fields, (addressKeys d).has member.1 = true := by
  rw [validateState, stateSchema, Questionnaire.stateSchema, ← Side.groupKeys_state] at h
  obtain ⟨-, hfailures⟩ := Rule.validate_ofKeys_eq_error_iff.mp (validate_eq_error_iff.mp h).2
  rw [hfailures, Rule.checkUnknown_of_has hknown, List.append_nil] at hmem
  obtain ⟨q, hq, inner, hinner, rfl⟩ := exists_question_of_mem_state hmem
  obtain ⟨asked, hasks, hcheck⟩ := Side.state.exists_asks q.behind q.field.ownState state
  rw [hcheck] at hinner
  obtain ⟨keys, fields, hkeys, hvalue, ⟨member, hpath⟩, hstray⟩ :=
    (hasks.isField (isField_ownState (hfields q hq))).exists_obj_of_unknownKey hinner hunknown
  rw [hasks.objectKeys?_eq] at hkeys
  obtain ⟨d, haddress, rfl⟩ := exists_address_of_objectKeys? (hfields q hq) hkeys
  exact ⟨q, hq, d, fields, haddress, hvalue, ⟨member, congrArg (q.name :: ·) hpath⟩, hstray⟩

/-- An object among the answers made of a submission is an address with all its members, or the
submitted object itself, which a field of one input under its name has welcomed. -/
theorem exists_welcomes_of_toState {payload data : FormData}
    (hdata : page.validateForm payload = .ok data) {key : String} {fields : Fields}
    (h : (page.toState data).get? key = some (.obj fields)) :
    (∃ name, fields = addressFields name data) ∨
      ∃ q ∈ questions page.components, q.name = key ∧ q.field.entry = .whole ∧
        ¬ q.field.definition.WelcomesNoObject := by
  obtain ⟨haccepts, rfl⟩ := accepts_of_validateForm hdata
  obtain ⟨answered, -, rfl, -, hstored⟩ := exists_question _ page.components h
  rcases Component.stored_eq_obj hstored.symm with ⟨d, -, haddress⟩ | hinput
  · exact .inl ⟨d.nameText, haddress⟩
  · obtain ⟨q, hq, own, hown, hwelcomes⟩ :=
      exists_welcomes_of_converted_form hfields haccepts hinput
    exact .inr ⟨q, hq, entry_eq_whole_of_not_welcomesNoObject (hfields q hq) hown hwelcomes⟩

/-- What a page converts lies under keys that its rules know. Submitted data becomes answers under
keys of the state, and each field of the page itself has one; stored answers become data under keys
of the form. If the answers made of a valid submission fail for an unknown member, then the member is
one inside the answer to a question for an address, whose name another field has as well, which is
entered as one input and welcomes an object. -/
theorem conversions_contained :
    (∀ payload,
        (∀ member ∈ page.toState payload, member.1 ∈ (stateKeys page.components).names) ∧
          ∀ c ∈ page.formComponents, ((page.toState payload).get? c.name).isSome = true) ∧
      (∀ state, ∀ member ∈ Questionnaire.toForm page.components state,
        member.1 ∈ (formKeys page.components).names) ∧
      ∀ payload data summary, page.validateForm payload = .ok data →
        page.validateState (page.toState data) = .error summary →
        ∀ failure ∈ summary.failures, failure.fault = .unknownKey →
          ∃ q ∈ questions page.components, q.AsksAddress ∧
            (∃ member, failure.path = [q.name, member]) ∧
            ∃ other ∈ questions page.components, other.name = q.name ∧
              other.field.entry = .whole ∧ ¬ other.field.definition.WelcomesNoObject := by
  refine ⟨fun payload => ⟨fun member hmember => ?_, fun c hc => isSome_get?_toState payload hc⟩,
    fun state member hmember => mem_formKeys_of_mem_toForm hmember, ?_⟩
  · rw [← Side.groupKeys_state, ← Keys.has_iff_mem_names]
    exact has_of_mem_toState page payload member hmember
  · intro payload data summary hdata hstate failure hmem hunknown
    obtain ⟨q, hq, d, fields, haddress, hvalue, hpath, hstray⟩ :=
      exists_address_of_unknownKey hfields (has_of_mem_toState page data) hstate hmem hunknown
    refine ⟨q, hq, ⟨d, haddress⟩, hpath, ?_⟩
    rcases exists_welcomes_of_toState hfields hdata hvalue with ⟨name, rfl⟩ | hother
    · exact absurd (has_of_mem_addressFields d name data) hstray
    · exact hother

end Page

/-! ### A house with a name -/

/-- The name of the house, which may also be the number of a line. -/
def houseName : ComponentDefinition :=
  { type := "TextField", name := some "home", title := some "House",
    constraints := { allow := some (.arr [.obj [("line", .str "1")]]) } }

/-- Whether the house stays the same. -/
def houseChoice : ComponentDefinition :=
  { type := "RadiosField", name := some "kind", title := some "Kind",
    options := { list := some "kind" } }

/-- The address of another house. -/
def houseAddress : ComponentDefinition :=
  { type := "UkAddressField", name := some "home", title := some "Home",
    options := { required := some false } }

/-- A new house has an address. -/
def houseList : ListDefinition :=
  { name := "kind", title := "Kind", type := .string,
    items := [{ text := "As before", value := .str "old" },
      { text := "New", value := .str "new", revealed := some [houseAddress] }] }

/-- The page as it is defined. -/
def houseDefinition : PageDefinition :=
  { path := "/house", components := [houseName, houseChoice] }

/-- The page that asks for the house. -/
def housePage : Page :=
  ⟨"/house", "", none,
    [.single (.text .line) houseName,
      .choice .radios houseChoice houseList [(1, .str "new", [.single .address houseAddress])]],
    [], ⟨[], []⟩, {}⟩

/-- The number of a line for the house that there was before. -/
def houseData : FormData :=
  [("home", .obj [("line", .str "1")]), ("kind", .str "old")]

/-- What is wrong with the answers made of it. -/
def houseErrors : ErrorSummary :=
  ⟨housePage.options.errorSummaryTitle, [⟨["home", "line"], "line", .unknownKey⟩]⟩

/-- The line is unknown inside the answer to the address, whose name the house has as well. -/
theorem Page.conversions_contained_house :
    (∀ q ∈ questions housePage.components, q.field.IsBuiltinField = true) ∧
      housePage.validateForm houseData = .ok houseData ∧
      housePage.validateState (housePage.toState houseData) = .error houseErrors ∧
      ∃ q ∈ questions housePage.components, q.AsksAddress ∧
        (∃ member, ["home", "line"] = [q.name, member]) ∧
        ∃ other ∈ questions housePage.components, other.name = q.name ∧
          other.field.entry = .whole ∧ ¬ other.field.definition.WelcomesNoObject := by
  have hfields : ∀ q ∈ questions housePage.components, q.field.IsBuiltinField = true := by
    decide +kernel
  have hform : housePage.validateForm houseData = .ok houseData := by decide +kernel
  have hstate : housePage.validateState (housePage.toState houseData) = .error houseErrors := by
    decide +kernel
  obtain ⟨-, -, hunknown⟩ := conversions_contained hfields
  exact ⟨hfields, hform, hstate,
    hunknown houseData houseData houseErrors hform hstate _ (List.mem_singleton_self _) rfl⟩

/-- A submission may be valid, and still its answers fail for an unknown member. The two fields of
one name have no input in common, so the page compiles. -/
theorem exists_unknown_refused :
    Page.compile houseDefinition [] ⟨[houseList], .builtin, "/house"⟩ ⟨[], []⟩ {} = .ok housePage ∧
      housePage.validateForm houseData = .ok houseData ∧
      housePage.validateState (housePage.toState houseData) = .error houseErrors :=
  ⟨rfl, by decide +kernel, by decide +kernel⟩

end Questionnaire
