import Questionnaire.Proofs.Component.Choosing
import Questionnaire.Proofs.Component.Filling

/-!
# The inputs of a field

A field has one input, or one for each part of its answer, and each input has a rule that is asked
as the rule of the stored answer is (`own_form`). What the field makes of submitted data depends on
its inputs alone, and an input left empty counts as one that was not submitted
(`Component.stored_congr`).
-/

namespace Questionnaire

/-- An input of a field that welcomes no values of its own. -/
structure Input where
  name : String
  /-- The rule of what is submitted, before it is asked. -/
  core : Rule
  /-- Whether the input may be left empty once the field is shown. -/
  isOptional : Bool

namespace Input

/-- The rule of what is submitted. -/
def rule (input : Input) : Rule :=
  input.core.asked (!input.isOptional) (welcome (.str "") input.isOptional)

/-- The rule of an input behind reveals is asked as the submitted data has it. -/
theorem check_behind (input : Input) (behind : List Reveal) (options : ValidationOptions)
    (name : String) (data : FormData) (value : Option Json) :
    (Side.form.behind behind input.rule).check options name (some data) value =
      (input.core.asked (mustBePresent behind input.isOptional data)
        (welcome (.str "") (welcomesBlank behind input.isOptional data))).check options name
          (some data) value :=
  check_behind_asked Side.form behind input.isOptional input.core options name data value

/-- What valid submitted data holds for an input, if anything: the blank or a value that the rule
leaves alone. -/
def Holds (input : Input) (data : FormData) : Prop :=
  ∀ value, data.get? input.name = some value → value = .str "" ∨ input.core.Settled value

/-- Data that holds the same for an input, the blank counting as nothing. -/
def Agrees (input : Input) (data data' : FormData) : Prop :=
  data'.get? input.name = data.get? input.name ∨
    (data'.get? input.name = some (.str "") ∧ data.get? input.name = none)

/-- What counts the blank as nothing makes the same of data that agrees. -/
theorem Agrees.congr {α : Type} {input : Input} {data data' : FormData} (h : input.Agrees data data')
    (stored : Option Json → α) (hblank : stored (some (.str "")) = stored none) :
    stored (data'.get? input.name) = stored (data.get? input.name) := by
  rcases h with h | ⟨h', h⟩
  · rw [h]
  · rw [h', h, hblank]

theorem Holds.cases {input : Input} {data : FormData} (h : input.Holds data) :
    (data.get? input.name = none ∨ data.get? input.name = some (.str "")) ∨
      ∃ value, data.get? input.name = some value ∧ input.core.Settled value := by
  cases hvalue : data.get? input.name with
  | none => exact .inl (.inl rfl)
  | some value =>
      rcases h value hvalue with rfl | hsettled
      · exact .inl (.inr rfl)
      · exact .inr ⟨value, rfl, hsettled⟩

/-- What is stored of an input that is neither missing nor blank is made of a value that the rule of
the input leaves alone. -/
theorem Holds.exists_settled {input : Input} {data : FormData} (h : input.Holds data)
    (stored : Option Json → Json) (hnone : stored none = .null)
    (hblank : stored (some (.str "")) = .null) (hgiven : stored (data.get? input.name) ≠ .null) :
    ∃ value, data.get? input.name = some value ∧ input.core.Settled value := by
  refine h.cases.resolve_left ?_
  rintro (hvalue | hvalue)
  · exact hgiven (hvalue ▸ hnone)
  · exact hgiven (hvalue ▸ hblank)

end Input

/-- What is asked of a part of a date. -/
def DatePart.leaf (part : DatePart) : Leaf :=
  .number { min := some part.min, max := some part.max, whole := true }

/-- What is asked of a part of an address. -/
def AddressPart.leaf (part : AddressPart) : Leaf :=
  if part.key = "postcode" then
    .text { max := some (Rule.lengthBound postcodeLimit), pattern := some .postcode }
  else .text { max := some (Rule.lengthBound addressPartLimit) }

namespace Component

/-- The inputs of a field, without those of what it reveals. -/
def inputs : Component → List Input
  | .single (.text variant) d => [⟨d.nameText, described d variant.base, d.isOptional⟩]
  | .single (.date withTime) d => [⟨d.nameText, described d (dateBase withTime), d.isOptional⟩]
  | .single (.dateParts withTime) d =>
    (datePartsOf withTime).map fun part =>
      ⟨partName d.nameText part.key,
        .leaf part.leaf { label := some (partLabel d.titleText part.label) }, d.isOptional⟩
  | .single .address d =>
    addressParts.map fun part =>
      ⟨partName d.nameText part.key, .leaf part.leaf { label := some part.label },
        !(part.core && !d.isOptional)⟩
  | .single (.content _) _ | .single .plain _ => []
  | .choice variant d list _ => [⟨d.nameText, variant.formCore d list, d.isOptional⟩]

end Component

theorem DatePart.rule_eq (part : DatePart) (d : ComponentDefinition) :
    part.rule d =
      (Rule.leaf part.leaf { label := some (partLabel d.titleText part.label) }).asked
        (!d.isOptional) (welcome (.str "") d.isOptional) :=
  presence_eq_asked d (.str "") rfl rfl

theorem AddressPart.rule_eq (part : AddressPart) (d : ComponentDefinition) :
    part.rule d =
      (Rule.leaf part.leaf { label := some part.label }).asked (part.core && !d.isOptional)
        (welcome (.str "") (!(part.core && !d.isOptional))) := by
  unfold AddressPart.rule AddressPart.leaf
  cases part.core && !d.isOptional <;> split <;> rfl

/-- The rules of submitted data of a field are those of its inputs. -/
theorem own_form {c : Component} (hfield : c.IsBuiltinField = true)
    (hallow : c.definition.constraints.allow = none) :
    Side.form.own c = c.inputs.map fun input => (input.name, input.rule) := by
  cases c with
  | single kind d =>
      cases kind with
      | text variant =>
          exact congrArg (fun rule => [(d.nameText, rule)])
            (presence_described_leaf hallow (.str "") variant.isBase_base)
      | date withTime =>
          exact congrArg (fun rule => [(d.nameText, rule)])
            (presence_described_leaf hallow (.str "") (isBase_dateBase withTime))
      | dateParts withTime =>
          refine (ofList_parts _ (nodup_datePartsOf withTime) d.nameText).trans ?_
          rw [Component.inputs, List.map_map]
          exact List.map_congr_left fun part _ => congrArg (Prod.mk _) (part.rule_eq d)
      | address =>
          refine (ofList_parts (fun part : AddressPart => part.rule d) nodup_addressParts
            d.nameText).trans ?_
          rw [Component.inputs, List.map_map]
          refine List.map_congr_left fun part _ => congrArg (Prod.mk _) ?_
          rw [part.rule_eq d, Input.rule, Bool.not_not]
      | content _ => cases hfield
      | plain => cases hfield
  | choice variant d list reveals =>
      exact congrArg (fun rule => [(d.nameText, rule)]) (variant.formRule_eq_asked hallow list)

/-- The rules of submitted data of a built-in field have the forms of field rules. -/
theorem isField_own_form {c : Component} (hfield : c.IsBuiltinField = true) {entry : String × Rule}
    (hentry : entry ∈ Side.form.own c) : entry.2.IsField := by
  refine own_form_of_kinds hfield ?_ ?_ ?_ ?_ ?_ hentry
  · exact isField_presence_leaf c.definition (.str "")
  · exact isField_among_leaf c.definition (.str "")
  · exact fun list => (isField_described_oneOrMore c.definition list).presence c.definition (.str "")
  · intro part
    rw [part.rule_eq, Rule.isField_asked]
    exact .one nofun
  · intro part
    rw [part.rule_eq, Rule.isField_asked, AddressPart.leaf]
    split <;> exact .one nofun

/-! ## What a field makes of its inputs -/

section

variable {input : Input} {data data' : FormData}

theorem storedText_congr (variant : TextVariant) (h : input.Agrees data data') :
    variant.stored (data'.get? input.name) = variant.stored (data.get? input.name) :=
  h.congr variant.stored rfl

theorem storedDate_congr (withTime : Bool) (h : input.Agrees data data') :
    storedDate withTime (data'.get? input.name) = storedDate withTime (data.get? input.name) :=
  h.congr (storedDate withTime) rfl

theorem storedChoice_congr (type : ListType) (h : input.Agrees data data') :
    storedChoice type (data'.get? input.name) = storedChoice type (data.get? input.name) :=
  h.congr (storedChoice type) rfl

theorem part_congr (h : input.Agrees data data') :
    partNumber? (data'.get? input.name) = partNumber? (data.get? input.name) ∧
      partTyped (data'.get? input.name) = partTyped (data.get? input.name) :=
  ⟨h.congr partNumber? rfl, h.congr partTyped rfl⟩

end

namespace SubmittedDate

/-- What is stored of the parts of a date depends on the numbers that they spell and on what was
typed. -/
theorem stored_congr {name : String} {withTime : Bool} {data data' : FormData}
    (h : ∀ part ∈ datePartsOf withTime,
      partNumber? (data'.get? (partName name part.key)) =
          partNumber? (data.get? (partName name part.key)) ∧
        partTyped (data'.get? (partName name part.key)) =
          partTyped (data.get? (partName name part.key))) :
    (SubmittedDate.of withTime name data').stored = (SubmittedDate.of withTime name data).stored := by
  cases withTime with
  | true =>
      simp only [datePartsOf, dateParts, timeParts, if_true, List.cons_append, List.nil_append,
        List.forall_mem_cons] at h
      obtain ⟨⟨hday, hday'⟩, ⟨hmonth, hmonth'⟩, ⟨hyear, hyear'⟩, ⟨hhour, hhour'⟩,
        ⟨hminute, hminute'⟩, -⟩ := h
      simp only [stored, assembled?, time?, isBlank, typed, SubmittedDate.of, if_true, hday, hday',
        hmonth, hmonth', hyear, hyear', hhour, hhour', hminute, hminute', Option.isSome_some]
  | false =>
      simp only [datePartsOf, dateParts, Bool.false_eq_true, if_false, List.forall_mem_cons] at h
      obtain ⟨⟨hday, hday'⟩, ⟨hmonth, hmonth'⟩, ⟨hyear, hyear'⟩, -⟩ := h
      simp only [stored, assembled?, time?, isBlank, typed, SubmittedDate.of, Bool.false_eq_true,
        if_false, hday, hday', hmonth, hmonth', hyear, hyear']

end SubmittedDate

/-- The address that texts make as its parts: null when all are empty. -/
def addressOf (text : AddressPart → String) : Json :=
  if addressParts.all fun part => text part = "" then .null
  else .obj (Fields.ofList (addressParts.map fun part => (part.key, .str (text part))))

theorem addressOf_congr {text text' : AddressPart → String}
    (h : ∀ part ∈ addressParts, text part = text' part) : addressOf text = addressOf text' := by
  have hall : (addressParts.all fun part => decide (text part = "")) =
      addressParts.all fun part => decide (text' part = "") := by
    rw [Bool.eq_iff_iff, List.all_eq_true, List.all_eq_true]
    exact forall₂_congr fun part hpart => by rw [h part hpart]
  have hmap : (addressParts.map fun part => (part.key, Json.str (text part))) =
      addressParts.map fun part => (part.key, Json.str (text' part)) :=
    List.map_congr_left fun part hpart => by rw [h part hpart]
  rw [addressOf, addressOf, hall, hmap]

theorem storedAddress_eq_addressOf (name : String) (data : FormData) :
    storedAddress name data = addressOf (addressText name data) := rfl

theorem storedAddress_congr {name : String} {data data' : FormData}
    (h : ∀ part ∈ addressParts, addressText name data' part = addressText name data part) :
    storedAddress name data' = storedAddress name data :=
  addressOf_congr h

/-- What a field makes of data depends on what its inputs hold, the blank counting as nothing. -/
theorem Component.stored_congr {c : Component} (hfield : c.IsBuiltinField = true)
    {data data' : FormData} (h : ∀ input ∈ c.inputs, input.Agrees data data') :
    c.stored data' = c.stored data := by
  cases c with
  | single kind d =>
      cases kind with
      | text variant => exact storedText_congr variant (h _ (List.mem_singleton_self _))
      | date withTime => exact storedDate_congr withTime (h _ (List.mem_singleton_self _))
      | dateParts withTime =>
          exact SubmittedDate.stored_congr fun part hpart =>
            part_congr (h _ (List.mem_map_of_mem hpart))
      | address =>
          refine storedAddress_congr fun part hpart => ?_
          have hinput := h _ (List.mem_map_of_mem hpart)
          rw [addressText, addressText]
          rcases hinput with hsame | ⟨hblank, hnone⟩
          · rw [show data'.get? (partName d.nameText part.key) = _ from hsame]
          · rw [show data'.get? (partName d.nameText part.key) = _ from hblank,
              show data.get? (partName d.nameText part.key) = _ from hnone]
            rfl
      | content _ => cases hfield
      | plain => cases hfield
  | choice variant d list reveals =>
      exact storedChoice_congr list.type (h _ (List.mem_singleton_self _))

end Questionnaire
