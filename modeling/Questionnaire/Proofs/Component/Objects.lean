import Questionnaire.Proofs.Component.Converting
import Questionnaire.Proofs.Component.Stored
import Questionnaire.State.Merge

/-!
# Answers that are objects

Where no definition welcomes an object, the only objects among the answers are addresses: no input
is one (`isObj_of_converted_form`), no field but an address makes one of other inputs
(`stored_eq_obj`), and no rule but that of an address takes one (`isAddress_of_converted_state`). All
addresses have the same parts, so merging one into another replaces it (`IsAddress.mergeFields_eq`).
-/

namespace Questionnaire

/-! ## Rules of objects -/

namespace Rule

/-- The keys of the rule of an object. -/
def objectKeys? : Rule → Option Keys
  | .object keys _ _ => some keys
  | _ => none

@[simp] theorem objectKeys?_mapAttributes (f : Attributes → Attributes) (rule : Rule) :
    (rule.mapAttributes f).objectKeys? = rule.objectKeys? := by
  cases rule <;> rfl

@[simp] theorem objectKeys?_mapText (f : TextConstraints → TextConstraints) (rule : Rule) :
    (rule.mapText f).objectKeys? = rule.objectKeys? := by
  cases rule with
  | leaf kind a => cases kind <;> rfl
  | _ => rfl

@[simp] theorem objectKeys?_mapNumber (f : NumberConstraints → NumberConstraints) (rule : Rule) :
    (rule.mapNumber f).objectKeys? = rule.objectKeys? := by
  cases rule with
  | leaf kind a => cases kind <;> rfl
  | _ => rfl

end Rule

theorem objectKeys?_foldl_allowing (values : List Json) (rule : Rule) :
    (values.foldl (fun rule value => rule.allowing value) rule).objectKeys? = rule.objectKeys? := by
  induction values generalizing rule with
  | nil => rfl
  | cons value values ih =>
      rw [List.foldl_cons, ih]
      exact Rule.objectKeys?_mapAttributes ..

theorem objectKeys?_bounded (c : AnswerConstraints) (rule : Rule) :
    (constrained { c with allow := none } rule).objectKeys? = rule.objectKeys? := by
  unfold constrained
  dsimp only
  cases c.min <;> cases c.max <;> split <;> simp [Rule.atLeast, Rule.atMost, Rule.trimming]

@[simp] theorem objectKeys?_described (d : ComponentDefinition) (base : Rule) :
    (described d base).objectKeys? = base.objectKeys? := by
  have hconstrained : (constrained d.constraints base).objectKeys? = base.objectKeys? := by
    rw [constrained_eq]
    split
    · rw [objectKeys?_foldl_allowing, objectKeys?_bounded]
    · exact (Rule.objectKeys?_mapAttributes ..).trans (objectKeys?_bounded ..)
    · exact objectKeys?_bounded ..
  unfold described
  dsimp only
  split
  · exact (Rule.objectKeys?_mapAttributes ..).trans hconstrained
  · exact hconstrained

@[simp] theorem objectKeys?_presence (d : ComponentDefinition) (blank : Json) (rule : Rule) :
    (presence d blank rule).objectKeys? = rule.objectKeys? := by
  unfold presence
  split <;> exact Rule.objectKeys?_mapAttributes ..

theorem Rule.IsBase.objectKeys?_eq {base : Rule} (h : base.IsBase) : base.objectKeys? = none := by
  obtain ⟨kind, rfl, -⟩ := h
  rfl

/-- No input has the rule of an object. -/
theorem objectKeys?_own_form {c : Component} (hfield : c.IsBuiltinField = true)
    {entry : String × Rule} (hentry : entry ∈ Side.form.own c) : entry.2.objectKeys? = none := by
  have hsingle {base : Rule} : base.IsBase → (formRule c.definition base).objectKeys? = none := by
    intro hbase
    rw [formRule, objectKeys?_presence, objectKeys?_described, hbase.objectKeys?_eq]
  refine own_form_of_kinds (P := fun rule => rule.objectKeys? = none) hfield hsingle ?_ ?_ ?_ ?_
    hentry
  · exact fun hbase values => (Rule.objectKeys?_mapAttributes ..).trans (hsingle hbase)
  · intro list
    rw [formRule, objectKeys?_presence, objectKeys?_described]
    rfl
  · intro part
    rw [part.rule_eq]
    rfl
  · intro part
    rw [part.rule_eq]
    rfl

/-- Of stored answers, addresses alone have the rule of an object. -/
theorem exists_address_of_objectKeys? {c : Component} (hfield : c.IsBuiltinField = true)
    {keys : Keys} (h : c.ownState.objectKeys? = some keys) :
    ∃ d, c = .single .address d ∧ keys = addressKeys d := by
  have hsingle {base : Rule} : base.IsBase → (stateRule c.definition base).objectKeys? = none := by
    intro hbase
    rw [stateRule, objectKeys?_presence, objectKeys?_described, hbase.objectKeys?_eq]
  revert h
  refine ownState_of_kinds (P := fun rule => rule.objectKeys? = some keys → _) hfield ?_ ?_ ?_ ?_
  · exact fun hbase h => nomatch (hsingle hbase).symm.trans h
  · intro base hbase values h
    exact nomatch (hsingle hbase).symm.trans ((Rule.objectKeys?_mapAttributes ..).symm.trans h)
  · intro list h
    rw [stateRule, objectKeys?_presence, objectKeys?_described] at h
    exact nomatch h
  · intro d hd h
    rw [addressRule, objectKeys?_presence] at h
    exact ⟨d, hd, (Option.some.inj h).symm⟩

/-! ## Welcome objects -/

/-- No object is among the values that a definition welcomes as they are. -/
def ComponentDefinition.WelcomesNoObject (d : ComponentDefinition) : Prop :=
  match d.constraints.allow with
  | some (.arr values) => ∀ value ∈ values, value.isObj = false
  | some value => value.isObj = false
  | none => True

/-- No object is among the values that a rule welcomes as they are. -/
def Rule.WelcomesNoObject (rule : Rule) : Prop :=
  ∀ value ∈ rule.attributes.allow, value.isObj = false

namespace Rule.WelcomesNoObject

variable {rule : Rule}

theorem of_allow_eq_nil (h : rule.attributes.allow = []) : rule.WelcomesNoObject := by
  rw [Rule.WelcomesNoObject, h]
  exact List.forall_mem_nil _

theorem not_allows_obj (h : rule.WelcomesNoObject) (fields : Fields) :
    rule.attributes.allows (.obj fields) = false := by
  rw [Attributes.allows, List.any_eq_false]
  intro value hvalue
  have hnot := h value hvalue
  cases value <;> simp_all [Json.same, Json.unsignedZero, Json.isObj, Json.obj?]

theorem mapAttributes (h : rule.WelcomesNoObject) {f : Attributes → Attributes}
    (hf : ∀ a, (f a).allow = a.allow) : (rule.mapAttributes f).WelcomesNoObject := by
  rw [Rule.WelcomesNoObject, Rule.attributes_mapAttributes, hf]
  exact h

theorem allowing (h : rule.WelcomesNoObject) {value : Json} (hvalue : value.isObj = false) :
    (rule.allowing value).WelcomesNoObject := by
  rw [Rule.WelcomesNoObject, Rule.attributes_allowing]
  split
  · exact h
  · intro other hother
    rcases List.mem_append.mp hother with hother | hother
    · exact h other hother
    · rwa [List.mem_singleton.mp hother]

theorem foldl_allowing {values : List Json} (h : rule.WelcomesNoObject)
    (hvalues : ∀ value ∈ values, value.isObj = false) :
    (values.foldl (fun rule value => rule.allowing value) rule).WelcomesNoObject := by
  induction values generalizing rule with
  | nil => exact h
  | cons value values ih =>
      obtain ⟨hvalue, hvalues⟩ := List.forall_mem_cons.mp hvalues
      exact ih (h.allowing hvalue) hvalues

variable {d : ComponentDefinition} (hd : d.WelcomesNoObject)

include hd

theorem described (h : rule.attributes.allow = []) :
    (Questionnaire.described d rule).WelcomesNoObject := by
  have hbounded : (constrained { d.constraints with allow := none } rule).WelcomesNoObject :=
    of_allow_eq_nil ((congrArg Attributes.allow (attributes_bounded ..)).trans h)
  unfold ComponentDefinition.WelcomesNoObject at hd
  rw [Rule.WelcomesNoObject, attributes_allow_described, constrained_eq]
  split
  · next values hallow =>
    rw [hallow] at hd
    exact hbounded.foldl_allowing hd
  · next value hvalue hallow =>
    rw [hallow] at hd
    refine hbounded.allowing ?_
    cases value with
    | arr values => exact absurd rfl (hvalue values)
    | _ => exact hd
  · exact hbounded

omit hd in
theorem presence (h : rule.WelcomesNoObject) (d : ComponentDefinition) {blank : Json}
    (hblank : blank.isObj = false) : (Questionnaire.presence d blank rule).WelcomesNoObject := by
  unfold Questionnaire.presence
  split
  · exact h.allowing hblank
  · exact h.mapAttributes fun _ => rfl

theorem formRule (h : rule.attributes.allow = []) :
    (Questionnaire.formRule d rule).WelcomesNoObject :=
  (described hd h).presence d rfl

theorem stateRule (h : rule.attributes.allow = []) :
    (Questionnaire.stateRule d rule).WelcomesNoObject :=
  (described hd h).presence d rfl

end Rule.WelcomesNoObject

/-- The numbers of a date welcome no objects, whatever the definition welcomes. -/
theorem DatePart.welcomesNoObject_rule (part : DatePart) (d : ComponentDefinition) :
    (part.rule d).WelcomesNoObject :=
  (Rule.WelcomesNoObject.of_allow_eq_nil rfl).presence d rfl

/-- The lines of an address welcome no objects, whatever the definition welcomes. -/
theorem AddressPart.welcomesNoObject_rule (part : AddressPart) (d : ComponentDefinition) :
    (part.rule d).WelcomesNoObject := by
  rw [part.rule_eq]
  intro value hvalue
  rw [Rule.attributes_asked] at hvalue
  rcases blanks_welcome (.inr rfl) _ value hvalue with rfl | rfl <;> rfl

section

variable {c : Component} (hfield : c.IsBuiltinField = true) (hd : c.definition.WelcomesNoObject)

include hfield hd

theorem welcomesNoObject_own_form {entry : String × Rule} (hentry : entry ∈ Side.form.own c) :
    entry.2.WelcomesNoObject := by
  refine own_form_of_kinds (P := Rule.WelcomesNoObject) hfield ?_ ?_ ?_ ?_ ?_ hentry
  · exact fun hbase => .formRule hd hbase.allow_eq
  · exact fun hbase values => (Rule.WelcomesNoObject.formRule hd hbase.allow_eq).mapAttributes
      fun _ => rfl
  · exact fun list => .formRule hd rfl
  · exact fun part => part.welcomesNoObject_rule _
  · exact fun part => part.welcomesNoObject_rule _

theorem welcomesNoObject_ownState : c.ownState.WelcomesNoObject := by
  refine ownState_of_kinds (P := Rule.WelcomesNoObject) hfield ?_ ?_ ?_ ?_
  · exact fun hbase => .stateRule hd hbase.allow_eq
  · exact fun hbase values => (Rule.WelcomesNoObject.stateRule hd hbase.allow_eq).mapAttributes
      fun _ => rfl
  · exact fun list => .stateRule hd rfl
  · exact fun d _ => (Rule.WelcomesNoObject.of_allow_eq_nil rfl).presence d rfl

end

namespace Side.Asks

variable {side : Side} {rule asked : Rule} (h : side.Asks rule asked)

include h

theorem objectKeys?_eq : asked.objectKeys? = rule.objectKeys? := by
  cases h with
  | alone => rfl
  | shown => exact Rule.objectKeys?_mapAttributes ..
  | hidden => exact (Rule.objectKeys?_mapAttributes ..).trans (Rule.objectKeys?_mapAttributes ..)

theorem welcomesNoObject (hblank : side.blank.isObj = false) (hrule : rule.WelcomesNoObject) :
    asked.WelcomesNoObject := by
  cases h with
  | alone => exact hrule
  | shown => exact hrule.mapAttributes fun _ => rfl
  | hidden =>
      have hoptional : rule.optional.WelcomesNoObject := hrule.mapAttributes fun _ => rfl
      exact hoptional.allowing hblank

end Side.Asks

/-! ## Addresses -/

/-- An address as it is stored: every part of an address and no other member, and in no part an
object. -/
structure IsAddress (address : Fields) : Prop where
  ordered : address.Ordered
  isSome_iff : ∀ key, (address.get? key).isSome = true ↔ ∃ part ∈ addressParts, part.key = key
  isObj_eq : ∀ key value, address.get? key = some value → value.isObj = false

/-- An address that is merged into another replaces it. -/
theorem IsAddress.mergeFields_eq {old address : Fields} (h : IsAddress address)
    (hold : IsAddress old) : mergeFields old address = address := by
  refine (hold.ordered.mergeFields address).ext h.ordered fun key => ?_
  rw [get?_mergeFields h.ordered]
  cases hvalue : address.get? key with
  | some value => exact congrArg some ((mergeValue_eq_iff _ (h.isObj_eq key value hvalue)).mpr rfl)
  | none =>
      have hnot : ¬ (old.get? key).isSome = true := by
        rw [hold.isSome_iff, ← h.isSome_iff, hvalue]
        exact nofun
      exact Option.not_isSome_iff_eq_none.mp hnot

theorem IsAddress.mergeValue_eq {old : Option Json} {address : Fields} (h : IsAddress address)
    (hold : ∀ fields, old = some (.obj fields) → IsAddress fields) :
    mergeValue old (.obj address) = .obj address := by
  unfold mergeValue
  split
  · next target => rw [h.mergeFields_eq (hold target rfl)]
  · rfl

section

variable {given : Option Json} {fields : Fields}

theorem eq_of_stored_text_obj {variant : TextVariant} (h : variant.stored given = .obj fields) :
    given = some (.obj fields) := by
  unfold TextVariant.stored at h
  split at h
  · cases h
  · next text =>
    have hscalar := isScalar_numberOfText text
    split at h
    · cases h
    · split at h
      · rw [h] at hscalar
        cases hscalar
      · cases h
  · rw [h]

theorem eq_of_storedPlain_obj (h : storedPlain given = .obj fields) :
    given = some (.obj fields) := by
  unfold storedPlain at h
  split at h
  · split at h <;> cases h
  · rw [h]
  · cases h

theorem eq_of_storedChoice_obj {type : ListType} (h : storedChoice type given = .obj fields) :
    given = some (.obj fields) := by
  cases given with
  | none => cases h
  | some value =>
      cases value with
      | str text =>
          have hscalar := type.isScalar_coerce_str text
          simp only [storedChoice] at h
          split at h
          · cases h
          · rw [h] at hscalar
            cases hscalar
      | obj other =>
          have hcoerce : Json.obj other = .obj fields := by
            simpa [storedChoice, ListType.coerce] using h
          rw [hcoerce]
      | _ => simp [storedChoice, ListType.coerce] at h

theorem storedDate_ne_obj (withTime : Bool) : storedDate withTime given ≠ .obj fields := by
  unfold storedDate
  split
  · split <;> exact nofun
  · exact nofun

theorem SubmittedDate.stored_ne_obj (parts : SubmittedDate) : parts.stored ≠ .obj fields := by
  unfold stored
  split
  · exact nofun
  · split <;> exact nofun

end

/-- An object that a field makes of inputs is an address, or was its input. -/
theorem Component.stored_eq_obj {c : Component} {data : FormData} {fields : Fields}
    (h : c.stored data = .obj fields) :
    (∃ d, c = .single .address d ∧ fields = addressFields d.nameText data) ∨
      data.get? c.name = some (.obj fields) := by
  cases c with
  | single kind d =>
      cases kind with
      | text variant => exact .inr (eq_of_stored_text_obj h)
      | date withTime => exact absurd h (storedDate_ne_obj withTime)
      | dateParts withTime => exact absurd h (SubmittedDate.stored_ne_obj _)
      | address =>
          refine .inl ⟨d, rfl, ?_⟩
          rcases storedAddress_cases d.nameText data with hnull | haddress
          · cases hnull.symm.trans h
          · exact (Json.obj.inj (haddress.symm.trans h)).symm
      | content variant => cases h
      | plain => exact .inr (eq_of_storedPlain_obj h)
  | choice variant d list reveals => exact .inr (eq_of_storedChoice_obj h)

theorem isAddress_addressFields (name : String) (data : FormData) :
    IsAddress (addressFields name data) := by
  have hmember : ∀ {key : String} {value : Json}, (addressFields name data).get? key = some value →
      ∃ part ∈ addressParts, part.key = key ∧ .str (addressText name data part) = value := by
    intro key value hvalue
    obtain ⟨part, hpart, heq⟩ := List.mem_map.mp (Fields.mem_of_get?_ofList hvalue)
    obtain ⟨hkey, htext⟩ := Prod.mk.inj heq
    exact ⟨part, hpart, hkey, htext⟩
  refine ⟨Fields.ordered_ofList _, fun key => ⟨fun hsome => ?_, ?_⟩, fun key value hvalue => ?_⟩
  · obtain ⟨value, hvalue⟩ := Option.isSome_iff_exists.mp hsome
    obtain ⟨part, hpart, hkey, -⟩ := hmember hvalue
    exact ⟨part, hpart, hkey⟩
  · rintro ⟨part, hpart, rfl⟩
    rw [get?_addressFields name data hpart]
    rfl
  · obtain ⟨part, -, -, rfl⟩ := hmember hvalue
    rfl

/-! ## Objects among inputs and answers -/

/-- The question is for an address. -/
def Question.AsksAddress (q : Question) : Prop :=
  ∃ d, q.field = .single .address d

section

variable {components : List Component} {data : Fields}
  (hfields : ∀ q ∈ questions components, q.field.IsBuiltinField = true)

include hfields

/-- Where an accepted input is an object, the rule of some field has welcomed it. -/
theorem exists_welcomes_of_converted_form
    (haccepts : Rule.Accepts {} (Side.form.groupKeys components) data) {key : String}
    {fields : Fields} (h : (Side.form.converted components data).get? key = some (.obj fields)) :
    ∃ q ∈ questions components, ∃ own, (key, own) ∈ Side.form.own q.field ∧
      ¬ own.WelcomesNoObject := by
  obtain ⟨q, hq, own, hown, asked, hasks, houtcome⟩ := Side.exists_outcome haccepts
    (fun q hq _ => isField_own_form (hfields q hq)) h
  refine ⟨q, hq, own, hown, fun hwelcome => ?_⟩
  have hobject := hasks.objectKeys?_eq.trans (objectKeys?_own_form (hfields q hq) hown)
  generalize data.get? key = given at houtcome
  cases houtcome with
  | welcome hallows =>
      cases hallows.symm.trans ((hasks.welcomesNoObject rfl hwelcome).not_allows_obj fields)
  | scalar hscalar => cases hscalar
  | members hrule _ =>
      rw [hrule] at hobject
      cases hobject

variable (hobjects : ∀ q ∈ questions components, q.field.definition.WelcomesNoObject)

include hobjects

/-- No accepted input is an object. -/
theorem isObj_of_converted_form (haccepts : Rule.Accepts {} (Side.form.groupKeys components) data)
    {key : String} {value : Json}
    (h : (Side.form.converted components data).get? key = some value) : value.isObj = false := by
  cases value with
  | obj fields =>
      obtain ⟨q, hq, own, hown, hwelcome⟩ := exists_welcomes_of_converted_form hfields haccepts h
      exact absurd (welcomesNoObject_own_form (hfields q hq) (hobjects q hq) hown) hwelcome
  | _ => rfl

/-- An object among the answers is an address, and that of a question for one. -/
theorem isAddress_of_converted_state
    (hdata : ∀ key value, data.get? key = some value → value.isObj = false)
    (haccepts : Rule.Accepts {} (Side.state.groupKeys components) (toState components data))
    {key : String} {fields : Fields}
    (h : (Side.state.converted components (toState components data)).get? key =
      some (.obj fields)) :
    IsAddress fields ∧ ∃ q ∈ questions components, q.name = key ∧ q.AsksAddress := by
  obtain ⟨q, hq, own, hown, asked, hasks, houtcome⟩ := Side.exists_outcome haccepts
    (fun q hq _ => isField_own_state (isForm_of_mem_questions _ hq) (hfields q hq)) h
  rw [Component.own_state (isForm_of_mem_questions _ hq)] at hown
  obtain ⟨rfl, rfl⟩ := Prod.mk.inj (List.mem_singleton.mp hown)
  have hwelcome := hasks.welcomesNoObject rfl (welcomesNoObject_ownState (hfields q hq)
    (hobjects q hq))
  have hkeys := hasks.objectKeys?_eq
  generalize hgiven : (toState components data).get? q.field.name = given at houtcome
  cases houtcome with
  | welcome hallows => cases hallows.symm.trans (hwelcome.not_allows_obj fields)
  | scalar hscalar => cases hscalar
  | @members keys a given hrule haccepts =>
      rw [hrule] at hkeys
      obtain ⟨d, hfield, rfl⟩ := exists_address_of_objectKeys? (hfields q hq) hkeys.symm
      refine ⟨?_, q, hq, rfl, d, hfield⟩
      -- The object that is accepted was made by a question for an address too.
      obtain ⟨other, -, -, -, hstored⟩ := exists_question data components hgiven
      rcases Component.stored_eq_obj hstored.symm with ⟨d', -, rfl⟩ | hinput
      · have hsettled := settledMembers_address haccepts
        have hnodup : (addressKeys d).names.Nodup := Keys.nodup_names_ofList _
        rw [hsettled.checkKeys_eq hnodup]
        exact isAddress_addressFields ..
      · cases hdata _ _ hinput

end

end Questionnaire
