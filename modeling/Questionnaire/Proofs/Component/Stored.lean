import Questionnaire.Proofs.Component.PartedDate

/-!
# What is stored

What a field makes of valid submitted data is what its stored answer is: if the rule for the state
accepts it, it leaves it as it is (`Component.check_stored`). Only a date in parts can be refused
then, since what was typed may be no date, and an answer that lies outside a list.
-/

namespace Questionnaire

/-! ## Leaves -/

section

variable {kind : Leaf} {a : Attributes} {value : Json} {options : ValidationOptions} {name : String}
  {siblings : Option Fields}

/-- A rule that only accepts what it leaves alone, or what is welcome as it is. -/
theorem check_leaf_of_passes_or (hkind : kind ≠ .any) (hblanks : Blanks a.allow)
    (hvalue : value = .null ∨ kind.Settled value ∨
      ∀ allowsEmpty label, (kind.check allowsEmpty label value).failures ≠ [])
    (hpass : ((Rule.leaf kind a).check options name siblings (some value)).failures = []) :
    (Rule.leaf kind a).check options name siblings (some value) = .pass value := by
  have hfield : (Rule.leaf kind a).IsField := .one hkind
  by_cases hallows : a.allows value = true
  · exact hfield.check_allowed options name siblings hallows
  · have hallows : a.allows value = false := by simpa using hallows
    rcases hvalue with rfl | hsettled | hrefuses
    · exact absurd hpass (hfield.check_null options name siblings hallows)
    · exact check_leaf_of_passes hblanks hsettled hpass
    · by_cases hnull : value = .null
      · subst hnull
        exact absurd hpass (hfield.check_null options name siblings hallows)
      · rw [Rule.check, Attributes.apply_some hallows hnull] at hpass
        rw [(Attributes.finish_of_passes hpass).1] at hpass
        exact absurd hpass (hrefuses _ _)

/-- The rule of a text that is trimmed leaves alone a text that has nothing to trim. -/
theorem check_text_of_passes {c : TextConstraints} {s : String} (htrim : Text.trim s = s)
    (hpass : ((Rule.leaf (.text c) a).check options name siblings (some (.str s))).failures = []) :
    (Rule.leaf (.text c) a).check options name siblings (some (.str s)) = .pass (.str s) := by
  have hfield : (Rule.leaf (.text c) a).IsField := .one (by simp)
  by_cases hallows : a.allows (.str s) = true
  · exact hfield.check_allowed options name siblings hallows
  · have hallows : a.allows (.str s) = false := by simpa using hallows
    rw [Rule.check, Attributes.apply_some hallows (by simp)] at hpass ⊢
    obtain ⟨hfinish, -⟩ := Attributes.finish_of_passes hpass
    rw [hfinish] at hpass ⊢
    simp only [Leaf.check, htrim, ite_self] at hpass ⊢
    split
    · next hempty =>
      rw [if_pos hempty] at hpass
      split
      · rw [hempty]
      · next hnot =>
        rw [if_neg hnot] at hpass
        cases hpass
    · next hne =>
      rw [if_neg hne] at hpass
      have hfaults : Leaf.textFaults c s = [] := List.map_eq_nil_iff.mp hpass
      rw [hfaults]
      rfl

end

/-! ## Texts and dates -/

theorem TextVariant.stored_of_settled {variant : TextVariant} {d : ComponentDefinition}
    {value : Json} (h : (described d variant.base).Settled value) :
    variant.stored (some value) = .null ∨ variant.stored (some value) = value := by
  cases value with
  | str s =>
      unfold stored
      dsimp only
      split
      · exact Or.inl rfl
      · split
        · next hnumber =>
          -- A number that is left alone is no text.
          subst hnumber
          obtain ⟨kind, a, hdescribed, hsort, -⟩ := described_leaf d (.number {}) {}
          rw [show described d TextVariant.number.base = .leaf kind a from hdescribed] at h
          obtain ⟨c, rfl⟩ := Leaf.sort_eq_number hsort
          cases h with
          | one h _ =>
              obtain ⟨x, hx, -⟩ := h.eq_num
              obtain ⟨n, hn⟩ := Leaf.numberValue_eq_num x
              rw [hn] at hx
              exact nomatch hx
        · exact Or.inr rfl
  | _ => exact Or.inr rfl

theorem Leaf.Settled.eq_date {withTime : Bool} {value : Json} (h : (dateLeaf withTime).Settled value) :
    ∃ s, value = .str s ∧ canonicalDate? withTime s = some s := by
  have hcheck := h.check_eq false ""
  rw [check_dateLeaf] at hcheck
  cases hread : value.str?.bind (canonicalDate? withTime) with
  | none =>
      rw [hread] at hcheck
      cases congrArg Checked.failures hcheck
  | some text =>
      rw [hread] at hcheck
      obtain rfl := Option.some.inj (congrArg Checked.value hcheck)
      exact ⟨text, rfl, hread⟩

theorem canonicalDate?_of_isBlankText {withTime : Bool} {s : String}
    (h : Text.isBlankText s = true) : canonicalDate? withTime s = none := by
  have htrimmed : Text.trimmed s.toList = [] := Text.trimmed_eq_nil_iff.mpr h
  have hmoment : DateTime.ofText? s = none := by
    rw [DateTime.ofText?, htrimmed]
    rfl
  cases withTime with
  | true => exact congrArg (Option.map DateTime.canonical) hmoment
  | false =>
      have hdate : Date.ofText? s = none := by
        rw [Date.ofText?, htrimmed, hmoment]
        rfl
      exact congrArg (Option.map Date.canonical) hdate

theorem storedDate_of_settled {withTime : Bool} {value : Json}
    (h : (dateLeaf withTime).Settled value) : storedDate withTime (some value) = value := by
  obtain ⟨s, rfl, hcanonical⟩ := h.eq_date
  have hblank : ¬ Text.isBlankText s = true := by
    intro hblank
    rw [canonicalDate?_of_isBlankText hblank] at hcanonical
    exact nomatch hcanonical
  rw [storedDate, if_neg hblank, hcanonical]
  rfl

theorem dateLeaf_ne_any (withTime : Bool) : dateLeaf withTime ≠ .any := by
  cases withTime <;> exact nofun

/-- Constraints do not apply to dates. -/
theorem described_dateBase (d : ComponentDefinition) (withTime : Bool) :
    ∃ a, described d (dateBase withTime) = .leaf (dateLeaf withTime) a := by
  obtain ⟨kind, a, hdescribed, hsort, -⟩ := described_leaf d (dateLeaf withTime) {}
  rw [dateBase_eq_leaf, hdescribed]
  cases withTime <;> cases kind <;> first | exact ⟨a, rfl⟩ | exact nomatch hsort

theorem settled_dateLeaf {d : ComponentDefinition} {withTime : Bool} {value : Json}
    (h : (described d (dateBase withTime)).Settled value) : (dateLeaf withTime).Settled value := by
  obtain ⟨a, hdescribed⟩ := described_dateBase d withTime
  rw [hdescribed] at h
  cases h with
  | one h _ => exact h

/-! ## Addresses -/

theorem addressKeys_eq (d : ComponentDefinition) :
    addressKeys d = addressParts.map fun part => (part.key, part.rule d) := by
  refine Keys.ofList_of_nodup ?_
  rw [Keys.names, List.map_map]
  exact nodup_addressParts

theorem mem_addressKeys (d : ComponentDefinition) {part : AddressPart} (hpart : part ∈ addressParts) :
    (part.key, part.rule d) ∈ addressKeys d := by
  rw [addressKeys_eq]
  exact List.mem_map_of_mem hpart

/-- The parts of a submitted address. -/
def addressFields (name : String) (data : FormData) : Fields :=
  Fields.ofList (addressParts.map fun part => (part.key, .str (addressText name data part)))

theorem storedAddress_cases (name : String) (data : FormData) :
    storedAddress name data = .null ∨ storedAddress name data = .obj (addressFields name data) := by
  unfold storedAddress
  split
  · exact Or.inl rfl
  · exact Or.inr rfl

theorem get?_addressFields (name : String) (data : FormData) {part : AddressPart}
    (hpart : part ∈ addressParts) :
    (addressFields name data).get? part.key = some (.str (addressText name data part)) := by
  refine Fields.get?_ofList_of_mem ?_ (List.mem_map_of_mem hpart)
  rw [List.map_map]
  exact nodup_addressParts

theorem AddressPart.leaf_eq_text (part : AddressPart) :
    ∃ c, part.leaf = .text c ∧ c.trim = true := by
  unfold leaf
  split <;> exact ⟨_, rfl, rfl⟩

theorem addressText_of_blank {name : String} {data : FormData} {part : AddressPart}
    (h : data.get? (partName name part.key) = none ∨
      data.get? (partName name part.key) = some (.str "")) : addressText name data part = "" := by
  rw [addressText]
  rcases h with h | h <;> rw [h] <;> rfl

theorem trim_addressText (name : String) (data : FormData) (part : AddressPart) :
    Text.trim (addressText name data part) = addressText name data part :=
  Text.trim_trim _

/-- An address whose parts pass is left as it is. -/
theorem settledMembers_address {d : ComponentDefinition} {name : String} {data : FormData}
    {options : ValidationOptions}
    (h : Rule.Accepts options (addressKeys d) (addressFields name data)) :
    Rule.SettledMembers (addressKeys d) (addressFields name data) := by
  refine ⟨Fields.ordered_ofList _, h.known, ?_⟩
  intro entry hentry options' siblings'
  have hpass := h.passes entry hentry
  have hispart := isPart_of_mem_addressKeys entry hentry
  rw [addressKeys_eq] at hentry
  obtain ⟨part, hpart, rfl⟩ := List.mem_map.mp hentry
  have hcheck := hispart.check_again hpass options' siblings'
  rw [get?_addressFields name data hpart] at hpass hcheck ⊢
  obtain ⟨c, hc, -⟩ := part.leaf_eq_text
  have hrule : ∃ a, part.rule d = .leaf (.text c) a := by
    rw [part.rule_eq d, hc]
    exact ⟨_, rfl⟩
  obtain ⟨a, hrule⟩ := hrule
  dsimp only at hpass hcheck ⊢
  rw [hrule] at hpass hcheck ⊢
  rw [check_text_of_passes (trim_addressText name data part) hpass] at hcheck
  exact hcheck

/-! ## Fields -/

namespace Component

variable {c : Component} {data : FormData} {required : Bool} {allow : List Json} {name : String}
  {siblings : Option Fields}

/-- What a field makes of valid submitted data is left as it is, if it is accepted. -/
theorem check_stored (hfield : c.IsBuiltinField = true)
    (hallow : c.definition.constraints.allow = none)
    (hdata : ∀ input ∈ c.inputs, input.Holds data) (hblanks : Blanks allow)
    (hpass : ((c.core.asked required allow).check {} name siblings
      (some (c.stored data))).failures = []) :
    (c.core.asked required allow).check {} name siblings (some (c.stored data)) =
      .pass (c.stored data) := by
  have hasked : (c.core.asked required allow).IsField :=
    (Rule.isField_asked ..).mpr (isField_core hfield hallow)
  have hblanks' : Blanks (c.core.asked required allow).attributes.allow := by
    rw [Rule.attributes_asked]
    exact hblanks
  by_cases hnull : c.stored data = .null
  · rw [hnull] at hpass ⊢
    cases hallows : (c.core.asked required allow).attributes.allows .null with
    | true => exact hasked.check_allowed {} name siblings hallows
    | false => exact absurd hpass (hasked.check_null {} name siblings hallows)
  cases c with
  | single kind d =>
      cases kind with
      | text variant =>
          have hinput := hdata _ (List.mem_singleton_self _)
          obtain ⟨value, hvalue, hsettled⟩ := hinput.exists_settled variant.stored rfl rfl hnull
          have hstored : (Component.single (.text variant) d).stored data =
              variant.stored (some value) := congrArg variant.stored hvalue
          rw [hstored] at hnull ⊢
          rw [(TextVariant.stored_of_settled hsettled).resolve_left hnull]
          exact Rule.Settled.check_eq hasked hblanks' ((Rule.settled_asked ..).mpr hsettled) ..
      | date withTime =>
          have hinput := hdata _ (List.mem_singleton_self _)
          obtain ⟨value, hvalue, hsettled⟩ :=
            hinput.exists_settled (storedDate withTime) rfl rfl hnull
          have hstored : (Component.single (.date withTime) d).stored data = value :=
            (congrArg (storedDate withTime) hvalue).trans
              (storedDate_of_settled (settled_dateLeaf hsettled))
          rw [hstored]
          exact Rule.Settled.check_eq hasked hblanks' ((Rule.settled_asked ..).mpr hsettled) ..
      | dateParts withTime =>
          obtain ⟨a, hcore⟩ := described_dateBase d withTime
          have hcases := (SubmittedDate.holds_of hdata).stored_cases
          rw [show (Component.single (.dateParts withTime) d).core = _ from hcore] at hpass ⊢
          refine check_leaf_of_passes_or (dateLeaf_ne_any withTime) hblanks ?_ hpass
          refine hcases.imp_right (Or.imp_left ?_)
          rintro ⟨text, -, hstored, hsettled⟩
          rw [Component.stored, hstored]
          exact hsettled
      | address =>
          have hstored : (Component.single .address d).stored data =
              .obj (addressFields d.nameText data) :=
            (storedAddress_cases d.nameText data).resolve_left hnull
          rw [hstored] at hpass ⊢
          have hallows : ({ label := some d.titleText, required, allow } : Attributes).allows
              (.obj (addressFields d.nameText data)) = false := by
            rw [← Bool.not_eq_true, Attributes.allows_iff hblanks]
            intro hmem
            rcases hblanks _ hmem with h | h <;> cases h
          have haccepts := Rule.accepts_of_check_object hallows rfl rfl hpass
          exact Rule.Settled.check_eq hasked hblanks'
            ((Rule.settled_asked ..).mpr (.members (settledMembers_address haccepts))) ..
      | content _ => cases hfield
      | plain => cases hfield
  | choice variant d list reveals =>
      have hinput := hdata _ (List.mem_singleton_self _)
      obtain ⟨value, hvalue, hsettled⟩ :=
        hinput.exists_settled (storedChoice list.type) rfl rfl hnull
      have hstored : (Component.choice variant d list reveals).stored data = value :=
        (congrArg (storedChoice list.type) hvalue).trans (storedChoice_of_settled hsettled)
      rw [hstored] at hpass ⊢
      exact check_core_of_settled hsettled hblanks hpass

end Component

end Questionnaire
