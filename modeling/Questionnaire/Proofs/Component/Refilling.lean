import Questionnaire.Proofs.Component.Stored
import Questionnaire.Proofs.Number.Spelling
import Questionnaire.Proofs.Rule.Merging

/-!
# Filling a form again

A stored answer fills the inputs of its field so that submitting them again gives the same values:
what an input is filled with is converted to the value it held (`Input.Reads`), and an input of an
answer that was not given is left empty (`Component.get?_ownForm_of_not_given`).
-/

namespace Questionnaire

/-! ## Texts that submit settled values -/

/-- What can be read is no empty text. -/
theorem Binary64.marked_ne_empty (x : Binary64) : x.marked ≠ "" := by
  intro hempty
  have hnil : x.marked.toList = [] := by rw [hempty]; rfl
  unfold marked at hnil
  dsimp only at hnil
  rw [String.toList_append, toList_signText] at hnil
  generalize shortestDecimal .toEven x.units = d at hnil
  split at hnil
  · obtain ⟨digits, exponent, hread, -⟩ := Decimal.ofChars?_positional d x.negative
    rw [hnil] at hread
    exact nomatch hread
  · have hread := Decimal.ofChars?_scientific d x.negative
    rw [hnil] at hread
    exact nomatch hread

theorem Number.text_ne_empty (n : Number) : n.text ≠ "" := by
  cases n with
  | int i h =>
      intro hempty
      have hnil : (toString i).toList = [] := by rw [show toString i = "" from hempty]; rfl
      rw [toList_toString_int] at hnil
      exact toString_toList_ne_nil _ (List.append_eq_nil_iff.mp hnil).2
  | float x => exact x.marked_ne_empty

namespace Leaf.Settled

variable {kind : Leaf} {value : Json}

/-- The text by which a settled value is submitted is converted to the value. -/
theorem check_formText (hkind : kind ≠ .any) (h : kind.Settled value) (allowsEmpty : Bool)
    (label : String) : kind.check allowsEmpty label (.str value.formText) = .pass value := by
  cases kind with
  | any => exact absurd rfl hkind
  | text c =>
      obtain ⟨s, rfl⟩ := h.eq_str
      exact h.check_eq allowsEmpty label
  | number c =>
      obtain ⟨x, rfl, hfaults⟩ := h.eq_num
      obtain ⟨y, hread, hvalue, hsame⟩ := Leaf.numberOf?_formText x
      simp only [Leaf.check, hread, hvalue, hsame, hfaults]
      rfl
  | boolean =>
      obtain ⟨b, rfl⟩ := h.eq_bool
      cases b <;> rfl
  | date =>
      obtain ⟨s, rfl, -⟩ := @Leaf.Settled.eq_date false _ h
      exact h.check_eq allowsEmpty label
  | dateTime =>
      obtain ⟨s, rfl, -⟩ := @Leaf.Settled.eq_date true _ h
      exact h.check_eq allowsEmpty label

theorem formText_ne_empty (hkind : kind ≠ .any) (h : kind.Settled value) :
    value.formText ≠ "" := by
  cases value with
  | bool b => cases b <;> decide
  | str s => exact fun hempty => h.ne_empty (congrArg Json.str hempty)
  | num n => exact n.text_ne_empty
  | _ => cases h.isScalar hkind

theorem trim_eq {c : TextConstraints} {s : String} (h : (Leaf.text c).Settled (.str s))
    (htrim : c.trim = true) : Text.trim s = s := by
  have hcheck := h.check_eq false ""
  simp only [Leaf.check, htrim, if_true] at hcheck
  split at hcheck
  · cases congrArg Checked.failures hcheck
  · exact Json.str.inj (Option.some.inj (congrArg Checked.value hcheck))

theorem choiceForm_eq (hkind : kind ≠ .any) (h : kind.Settled value) :
    choiceForm value = .str value.formText := by
  cases value with
  | arr items => cases h.isScalar hkind
  | _ => rfl

end Leaf.Settled

/-- A date-time is shown in an input in a text that denotes it. -/
theorem canonicalDate?_dateForm {withTime : Bool} {s : String} (h : canonicalDate? withTime s = some s) :
    canonicalDate? withTime (dateForm withTime (.str s)) = some s := by
  cases withTime with
  | false => exact h
  | true =>
      obtain ⟨moment, hmoment, hs⟩ := Option.map_eq_some_iff.mp h
      have hread := DateTime.ofText?_inputText (DateTime.inAnswerRange_of_ofText? hmoment)
      have hform : dateForm true (.str s) = moment.inputText := by
        simp only [dateForm, hmoment]
        rfl
      rw [hform, canonicalDate?, if_pos rfl, hread]
      exact congrArg some hs

theorem check_dateForm {withTime : Bool} {value : Json} (h : (dateLeaf withTime).Settled value)
    (allowsEmpty : Bool) (label : String) :
    (dateLeaf withTime).check allowsEmpty label (.str (dateForm withTime value)) = .pass value := by
  obtain ⟨s, rfl, hcanonical⟩ := h.eq_date
  rw [check_dateLeaf, Json.str?, Option.bind_some, canonicalDate?_dateForm hcanonical]

theorem dateForm_ne_empty {withTime : Bool} {value : Json} (h : (dateLeaf withTime).Settled value) :
    dateForm withTime value ≠ "" := by
  intro hempty
  have hcheck := check_dateForm h false ""
  rw [hempty] at hcheck
  have hblank : canonicalDate? withTime "" = none := canonicalDate?_of_isBlankText rfl
  exact check_of_canonicalDate?_none hblank false "" (by rw [hcheck]; rfl)

/-- A part that is submitted as something its rule leaves alone is that text in the address. -/
theorem addressText_of_settled {name : String} {data : FormData} {part : AddressPart}
    {a : Attributes} {value : Json}
    (hvalue : data.get? (partName name part.key) = some value)
    (h : (Rule.leaf part.leaf a).Settled value) : value = .str (addressText name data part) := by
  obtain ⟨c, hc, htrim⟩ := part.leaf_eq_text
  rw [hc] at h
  cases h with
  | one hleaf _ =>
      obtain ⟨s, rfl⟩ := hleaf.eq_str
      rw [addressText, hvalue]
      exact congrArg Json.str (hleaf.trim_eq htrim).symm

/-! ## Rules that read what they have written -/

theorem Attributes.not_allows_str {a : Attributes} (hblanks : Blanks a.allow) {s : String}
    (hne : s ≠ "") : a.allows (.str s) = false := by
  rw [← Bool.not_eq_true, Attributes.allows_iff hblanks]
  intro hmem
  rcases hblanks _ hmem with hnull | hempty
  · exact nomatch hnull
  · exact hne (Json.str.inj hempty)

namespace Rule

variable {kind : Leaf} {choices : List Json} {a : Attributes} {value : Json}
  {options : ValidationOptions} {name : String} {siblings : Option Fields}

theorem check_formText (hkind : kind ≠ .any) (hblanks : Blanks a.allow)
    (h : (Rule.leaf kind a).Settled value) :
    (Rule.leaf kind a).check options name siblings (some (.str value.formText)) = .pass value := by
  cases h with
  | one h hvalid =>
      exact check_leaf_of_converts options name siblings (h.check_formText hkind) hvalid
        (Attributes.not_allows_str hblanks (h.formText_ne_empty hkind)) nofun

theorem check_choiceForm (hkind : kind ≠ .any) (hvalid : a.valid = none)
    (hblanks : Blanks a.allow) (h : (severalOf kind choices a).Settled value) :
    (severalOf kind choices a).check options name siblings (some (choiceForm value)) =
      .pass value := by
  unfold severalOf at h
  cases h with
  | single h hamong =>
      rw [h.choiceForm_eq hkind]
      have hallows := Attributes.not_allows_str hblanks (h.formText_ne_empty hkind)
      refine check_severalOf_single hvalid hallows nofun fun label => ?_
      exact check_formText hkind blanks_nil (.one h (admits_choices hamong))
  | @many _ _ _ items h =>
      refine check_severalOf_map hkind hvalid hblanks _ fun label item hitem => ?_
      exact check_formText hkind blanks_nil
        (.one (h item hitem).1 (admits_choices (h item hitem).2))

end Rule

namespace Input

/-- What is given for an input is converted to a value, however the input is asked for. -/
def Reads (input : Input) (given value : Json) : Prop :=
  ∀ (required : Bool) (allow : List Json) (name : String) (siblings : Option Fields),
    Blanks allow → (input.core.asked required allow).check {} name siblings (some given) = .pass value

theorem reads_of_leaf {input : Input} {kind : Leaf} {a : Attributes}
    (hcore : input.core = .leaf kind a) {given : String} {value : Json} (hne : given ≠ "")
    (hread : ∀ allowsEmpty label, kind.check allowsEmpty label (.str given) = .pass value)
    (hvalid : a.Admits value) : input.Reads (.str given) value := by
  intro required allow name siblings hblanks
  rw [hcore]
  exact Rule.check_leaf_of_converts {} name siblings hread hvalid
    (Attributes.not_allows_str hblanks hne) nofun

theorem reads_formText {input : Input} {kind : Leaf} {a : Attributes} (hkind : kind ≠ .any)
    (hcore : input.core = .leaf kind a) {value : Json} (h : input.core.Settled value) :
    input.Reads (.str value.formText) value := by
  rw [hcore] at h
  cases h with
  | one h hvalid =>
      exact reads_of_leaf hcore (h.formText_ne_empty hkind) (h.check_formText hkind) hvalid

/-- How an input is filled in place of what data held for it: with something that is converted to
that, or with nothing where there was nothing. -/
def Refilled (input : Input) (data : FormData) (given : Option Json) : Prop :=
  (given = some (.str "") ∧ input.isOptional = true ∧
      (data.get? input.name = none ∨ data.get? input.name = some (.str ""))) ∨
    ∃ text value, given = some text ∧ data.get? input.name = some value ∧ input.Reads text value

end Input

/-- A whole number that is part of a date is submitted as it is written. -/
theorem formText_of_partNumber? {c : NumberConstraints} {value : Json}
    (h : (Leaf.number c).Settled value) {n : Nat} (hn : partNumber? (some value) = some n) :
    value.formText = toString n := by
  obtain ⟨x, rfl, -⟩ := h.eq_num
  obtain ⟨k, hk⟩ := Leaf.numberValue_eq_num x
  rw [hk] at hn ⊢
  have hnat : k.nat? = some n := (Option.filter_eq_some_iff.mp hn).1
  cases k with
  | int i hi =>
      cases i with
      | ofNat m =>
          obtain rfl := Option.some.inj hnat
          rfl
      | negSucc m => exact nomatch hnat
  | float y => exact nomatch hnat

/-! ## Answers that are not given -/

namespace Component

variable {c : Component} {state : State} {data : FormData}

theorem get?_answer (name : String) (value : Json) : (answer name value).get? name = some value := by
  rw [answer, Fields.get?_cons, if_pos rfl]

theorem ownForm_of_none (h : state.get? c.name = none) : c.ownForm state = [] := by
  cases c with
  | single kind d =>
      change state.get? d.nameText = none at h
      cases kind <;>
        simp only [ownForm, SingleKind.toForm, scalarForm, datePartsForm, addressForm, h,
          Option.bind_none]
  | choice variant d list reveals =>
      change state.get? d.nameText = none at h
      simp only [ownForm, h]

/-- Null is filled in as the blank, or as nothing where the answer has parts. -/
theorem ownForm_of_null (h : state.get? c.name = some .null) :
    c.ownForm state = [] ∨ c.ownForm state = answer c.name (.str "") := by
  cases c with
  | single kind d =>
      change state.get? d.nameText = some .null at h
      cases kind with
      | text _ | plain | date _ =>
          right
          simp only [ownForm, SingleKind.toForm, scalarForm, h]
          rfl
      | dateParts _ | address | content _ =>
          left
          simp only [ownForm, SingleKind.toForm, datePartsForm, addressForm, h, Option.bind_some,
            Json.str?]
  | choice variant d list reveals =>
      change state.get? d.nameText = some .null at h
      right
      simp only [ownForm, h]
      rfl

/-- An answer that is not given leaves the inputs of its field empty. -/
theorem get?_ownForm_of_not_given (h : state.get? c.name = none ∨ state.get? c.name = some .null)
    (key : String) :
    (c.ownForm state).get? key = none ∨ (c.ownForm state).get? key = some (.str "") := by
  rcases h with h | h
  · rw [ownForm_of_none h]
    exact Or.inl rfl
  · rcases ownForm_of_null h with hform | hform <;> rw [hform]
    · exact Or.inl rfl
    · rw [answer, Fields.get?_cons]
      split
      · exact Or.inr rfl
      · exact Or.inl rfl

/-! ## Answers that are given -/

theorem refilled_text {variant : TextVariant} {d : ComponentDefinition}
    (hdata : ∀ input ∈ (Component.single (.text variant) d).inputs, input.Holds data)
    (hstate : state.get? d.nameText = some (variant.stored (data.get? d.nameText)))
    (hgiven : variant.stored (data.get? d.nameText) ≠ .null) :
    ∀ input ∈ (Component.single (.text variant) d).inputs,
      input.Refilled data (((Component.single (.text variant) d).ownForm state).get? input.name) := by
  intro input hinput
  have hholds := hdata input hinput
  obtain rfl := List.mem_singleton.mp hinput
  obtain ⟨value, hvalue, hsettled⟩ := hholds.exists_settled variant.stored rfl rfl hgiven
  change data.get? d.nameText = some value at hvalue
  rw [hvalue] at hstate hgiven
  rw [(TextVariant.stored_of_settled hsettled).resolve_left hgiven] at hstate
  obtain ⟨base, hbase, hkind⟩ := variant.isBase_base
  obtain ⟨kind, a, hdescribed, hsort, -⟩ := described_leaf d base {}
  rw [← hbase] at hdescribed
  refine Or.inr ⟨.str value.formText, value, ?_, hvalue, ?_⟩
  · show (scalarForm d.nameText state).get? d.nameText = _
    rw [scalarForm, hstate]
    exact get?_answer _ _
  · exact Input.reads_formText (Leaf.ne_any_of_sort hsort hkind) hdescribed hsettled

theorem refilled_date {withTime : Bool} {d : ComponentDefinition}
    (hdata : ∀ input ∈ (Component.single (.date withTime) d).inputs, input.Holds data)
    (hstate : state.get? d.nameText = some (storedDate withTime (data.get? d.nameText)))
    (hgiven : storedDate withTime (data.get? d.nameText) ≠ .null) :
    ∀ input ∈ (Component.single (.date withTime) d).inputs,
      input.Refilled data (((Component.single (.date withTime) d).ownForm state).get? input.name) := by
  intro input hinput
  have hholds := hdata input hinput
  obtain rfl := List.mem_singleton.mp hinput
  obtain ⟨value, hvalue, hsettled⟩ := hholds.exists_settled (storedDate withTime) rfl rfl hgiven
  change data.get? d.nameText = some value at hvalue
  rw [hvalue] at hstate hgiven
  have hleaf := settled_dateLeaf hsettled
  rw [storedDate_of_settled hleaf] at hstate
  obtain ⟨a, hdescribed⟩ := described_dateBase d withTime
  change (described d (dateBase withTime)).Settled value at hsettled
  rw [hdescribed] at hsettled
  cases hsettled with
  | one _ hvalid =>
      refine Or.inr ⟨.str (dateForm withTime value), value, ?_, hvalue, ?_⟩
      · simp only [ownForm, SingleKind.toForm, hstate]
        exact get?_answer _ _
      · exact Input.reads_of_leaf hdescribed (dateForm_ne_empty hleaf)
          (check_dateForm hleaf) hvalid

theorem refilled_choice {variant : ChoiceVariant} {d : ComponentDefinition} {list : ListDefinition}
    {reveals : List (Nat × Json × List Component)}
    (hdata : ∀ input ∈ (Component.choice variant d list reveals).inputs, input.Holds data)
    (hstate : state.get? d.nameText = some (storedChoice list.type (data.get? d.nameText)))
    (hgiven : storedChoice list.type (data.get? d.nameText) ≠ .null) :
    ∀ input ∈ (Component.choice variant d list reveals).inputs, input.Refilled data
      (((Component.choice variant d list reveals).ownForm state).get? input.name) := by
  intro input hinput
  have hholds := hdata input hinput
  obtain rfl := List.mem_singleton.mp hinput
  obtain ⟨value, hvalue, hsettled⟩ := hholds.exists_settled (storedChoice list.type) rfl rfl hgiven
  change data.get? d.nameText = some value at hvalue
  rw [hvalue] at hstate hgiven
  rw [storedChoice_of_settled hsettled] at hstate
  refine Or.inr ⟨choiceForm value, value, ?_, hvalue, ?_⟩
  · simp only [ownForm, hstate]
    exact get?_answer _ _
  · rcases formCore_forms variant d list reveals with ⟨kind, a, -, hsort, hform, -⟩ |
      ⟨a, hvalid, hform, -⟩
    · have hkind := Leaf.ne_any_of_sort hsort list.type.leaf_ne_any
      have hleaf : kind.Settled value := by
        change (variant.formCore d list).Settled value at hsettled
        rw [hform] at hsettled
        cases hsettled with
        | one h _ => exact h
      rw [hleaf.choiceForm_eq hkind]
      exact Input.reads_formText hkind hform hsettled
    · intro required allow name siblings hblanks
      change (variant.formCore d list).Settled value at hsettled
      show ((variant.formCore d list).asked required allow).check {} name siblings _ = _
      rw [hform] at hsettled ⊢
      exact Rule.check_choiceForm list.type.leaf_ne_any hvalid hblanks
        ((Rule.settled_asked required allow _).mpr hsettled)

theorem refilled_dateParts {withTime : Bool} {d : ComponentDefinition}
    (hdata : ∀ input ∈ (Component.single (.dateParts withTime) d).inputs, input.Holds data)
    (hstate : state.get? d.nameText = some (SubmittedDate.of withTime d.nameText data).stored)
    (hsettled : (described d (dateBase withTime)).Settled
      (SubmittedDate.of withTime d.nameText data).stored) :
    ∀ input ∈ (Component.single (.dateParts withTime) d).inputs, input.Refilled data
      (((Component.single (.dateParts withTime) d).ownForm state).get? input.name) := by
  have hholds := SubmittedDate.holds_of hdata
  rcases hholds.stored_cases with hnull | ⟨text, hassembled, hstored, -⟩ | hrefused
  · exact absurd hnull hsettled.ne_null
  · rw [hstored] at hstate
    have hform := datePartsForm_of_assembled hholds hassembled hstate
    intro input hinput
    have hinput' := hdata input hinput
    obtain ⟨part, hpart, rfl⟩ := List.mem_map.mp hinput
    obtain ⟨n, hn, hget⟩ := hform part hpart
    rcases hinput'.cases with (hvalue | hvalue) | ⟨value, hvalue, hpartSettled⟩
    · exact nomatch hvalue ▸ hn
    · exact nomatch hvalue ▸ hn
    · refine Or.inr ⟨.str (toString n), value, hget, hvalue, ?_⟩
      have htext : value.formText = toString n := by
        change (Rule.leaf part.leaf _).Settled value at hpartSettled
        cases hpartSettled with
        | one h _ => exact formText_of_partNumber? h (hvalue ▸ hn)
      rw [← htext]
      have hkind : part.leaf ≠ .any := nofun
      exact Input.reads_formText hkind rfl hpartSettled
  · refine absurd ?_ (hrefused false "")
    rw [(settled_dateLeaf hsettled).check_eq]
    rfl

theorem get?_addressForm {d : ComponentDefinition}
    (hstate : state.get? d.nameText = some (.obj (addressFields d.nameText data)))
    {part : AddressPart} (hpart : part ∈ addressParts) :
    (addressForm d.nameText state).get? (partName d.nameText part.key) =
      some (.str (addressText d.nameText data part)) := by
  have htexts : (addressParts.map fun part => (partName d.nameText part.key,
      Json.str (((Fields.get? (addressFields d.nameText data) part.key).bind Json.str?).getD ""))) =
      addressParts.map fun part =>
        (partName d.nameText part.key, Json.str (addressText d.nameText data part)) := by
    refine List.map_congr_left fun part hpart => ?_
    rw [get?_addressFields d.nameText data hpart]
    rfl
  rw [addressForm, hstate]
  dsimp only
  rw [htexts]
  refine Fields.get?_ofList_of_mem ?_ (List.mem_map_of_mem hpart)
  rw [List.map_map]
  have hnames := nodup_addressParts.map (partName_injective d.nameText)
  rwa [List.map_map] at hnames

/-- An address that is accepted lacks only parts that may be left empty. -/
theorem isOptional_of_addressText_eq {d : ComponentDefinition}
    (hsettled : Rule.SettledMembers (addressKeys d) (addressFields d.nameText data))
    {part : AddressPart} (hpart : part ∈ addressParts)
    (hempty : addressText d.nameText data part = "") : (part.core && !d.isOptional) = false := by
  have hpass := congrArg Checked.failures (hsettled.passes _ (mem_addressKeys d hpart) {} none)
  rw [get?_addressFields d.nameText data hpart, hempty, part.rule_eq d] at hpass
  cases hmust : part.core && !d.isOptional with
  | false => rfl
  | true =>
      rw [hmust] at hpass
      obtain ⟨c, hc, htrim⟩ := part.leaf_eq_text
      rw [hc] at hpass
      have hfails : (((Rule.leaf (.text c) { label := some part.label }).asked true
          (welcome (.str "") (!true))).check {} part.key none (some (.str ""))).failures ≠ [] := by
        show ((Rule.leaf (.text c) { label := some part.label, required := true }).check {} part.key
          none (some (.str ""))).failures ≠ []
        have hne : Json.str "" ≠ .null := nofun
        rw [Rule.check, Attributes.apply_some rfl hne]
        intro hnil
        rw [(Attributes.finish_of_passes hnil).1, Leaf.check] at hnil
        have htrimmed : Text.trim "" = "" := rfl
        simp [htrim, htrimmed, Attributes.allows, Checked.fail] at hnil
      exact absurd hpass hfails

theorem refilled_address {d : ComponentDefinition}
    (hdata : ∀ input ∈ (Component.single .address d).inputs, input.Holds data)
    (hstate : state.get? d.nameText = some (storedAddress d.nameText data))
    (hsettled : (Component.single .address d).core.Settled (storedAddress d.nameText data)) :
    ∀ input ∈ (Component.single .address d).inputs,
      input.Refilled data (((Component.single .address d).ownForm state).get? input.name) := by
  have hstored := (storedAddress_cases d.nameText data).resolve_left hsettled.ne_null
  rw [hstored] at hstate hsettled
  have hmembers : Rule.SettledMembers (addressKeys d) (addressFields d.nameText data) := by
    change (Rule.object (addressKeys d) false _).Settled _ at hsettled
    cases hsettled with
    | members h => exact h
  intro input hinput
  have hinput' := hdata input hinput
  obtain ⟨part, hpart, rfl⟩ := List.mem_map.mp hinput
  have hget := get?_addressForm hstate hpart
  rcases hinput'.cases with hblank | ⟨value, hvalue, hpartSettled⟩
  · have hempty := addressText_of_blank hblank
    rw [hempty] at hget
    refine Or.inl ⟨hget, ?_, hblank⟩
    rw [isOptional_of_addressText_eq hmembers hpart hempty, Bool.not_false]
  · obtain rfl := addressText_of_settled hvalue hpartSettled
    have hkind : part.leaf ≠ .any := by
      obtain ⟨c, hc, -⟩ := part.leaf_eq_text
      simp [hc]
    exact Or.inr ⟨_, _, hget, hvalue, Input.reads_formText hkind rfl hpartSettled⟩

/-- An answer that is given fills the inputs of its field with what they held. -/
theorem refilled_of_stored {c : Component} (hfield : c.IsBuiltinField = true)
    (hdata : ∀ input ∈ c.inputs, input.Holds data)
    (hstate : state.get? c.name = some (c.stored data)) (hsettled : c.core.Settled (c.stored data)) :
    ∀ input ∈ c.inputs, input.Refilled data ((c.ownForm state).get? input.name) := by
  cases c with
  | single kind d =>
      cases kind with
      | text variant => exact refilled_text hdata hstate hsettled.ne_null
      | date withTime => exact refilled_date hdata hstate hsettled.ne_null
      | dateParts withTime => exact refilled_dateParts hdata hstate hsettled
      | address => exact refilled_address hdata hstate hsettled
      | content _ => cases hfield
      | plain => cases hfield
  | choice variant d list reveals => exact refilled_choice hdata hstate hsettled.ne_null

end Component

end Questionnaire
