import Questionnaire.Proofs.Component.Refilling
import Questionnaire.Proofs.Number.Submitted

/-!
# Answers submitted again

A stored answer that is turned into form data and back comes back as what its inputs can hold of it
(`Component.regained`): a text of blanks as no answer, a moment whose parts are entered without its
seconds, and an address with all its parts or, where they are all empty, as no answer. Every other
answer that the rule for the state leaves as it is comes back as it was (`Component.toState_toForm`).
-/

namespace Questionnaire

/-! ## Single values -/

/-- A moment with its seconds dropped. -/
def DateTime.toMinute (moment : DateTime) : DateTime :=
  { moment with
    time := { moment.time with
      second := 0
      second_le := Nat.le_trans (Nat.zero_le _) moment.time.second_le } }

theorem DateTime.toMinute_eq (moment : DateTime) (h : moment.time.second = 0) :
    moment.toMinute = moment := by
  obtain ⟨date, hour, minute, second, hhour, hminute, hsecond⟩ := moment
  obtain rfl : second = 0 := h
  rfl

/-- A part of a stored address, empty where it is not a text. -/
def storedPart (address : Fields) (part : AddressPart) : String :=
  ((address.get? part.key).bind Json.str?).getD ""

namespace Component

/-- What a stored answer is stored as once it has been submitted again. -/
def regained : Component → Json → Json
  | .single (.text _) _, .str s => if Text.isBlankText s then .null else .str s
  | .single (.dateParts true) _, .str s =>
    .str (((DateTime.ofText? s).map fun moment => moment.toMinute.canonical).getD s)
  | .single .address _, .obj address => addressOf (storedPart address)
  | _, value => value

end Component

theorem ListType.coerce_formText (type : ListType) {kind : Leaf}
    (hsort : kind.sort = type.leaf.sort) {value : Json} (h : kind.Settled value) :
    type.coerce (.str value.formText) = value := by
  cases type with
  | string =>
      cases kind with
      | text c =>
          obtain ⟨s, rfl⟩ := h.eq_str
          rfl
      | _ => exact nomatch hsort
  | number =>
      obtain ⟨c, rfl⟩ := Leaf.sort_eq_number hsort
      obtain ⟨x, rfl, -⟩ := h.eq_num
      exact numberOfText_formText x
  | boolean =>
      obtain rfl := Leaf.sort_eq_boolean hsort
      obtain ⟨b, rfl⟩ := h.eq_bool
      cases b <;> decide +kernel

theorem storedChoice_choiceForm {variant : ChoiceVariant} {d : ComponentDefinition}
    {list : ListDefinition} {reveals : List (Nat × Json × List Component)} {value : Json}
    (h : (Component.choice variant d list reveals).core.Settled value) :
    storedChoice list.type (some (choiceForm value)) = value := by
  have hsingle : ∀ {kind : Leaf} {value : Json}, kind.sort = list.type.leaf.sort →
      kind.Settled value → storedChoice list.type (some (choiceForm value)) = value := by
    intro kind value hsort hsettled
    have hkind := Leaf.ne_any_of_sort hsort list.type.leaf_ne_any
    rw [hsettled.choiceForm_eq hkind]
    exact (if_neg fun hempty => hsettled.formText_ne_empty hkind (Json.str.inj hempty)).trans
      (list.type.coerce_formText hsort hsettled)
  rcases formCore_forms variant d list reveals with ⟨kind, a, a', hsort, -, hcore⟩ |
    ⟨a, hvalid, -, hcore⟩
  · rw [hcore] at h
    cases h with
    | one h _ => exact hsingle hsort h
  · rw [hcore] at h
    cases h with
    | single h _ => exact hsingle rfl h
    | @many _ _ _ items h =>
        rw [choiceForm, storedChoice, List.map_map]
        refine congrArg Json.arr (Eq.trans (List.map_congr_left fun item hitem => ?_) (List.map_id _))
        exact list.type.coerce_formText rfl (h item hitem).1

theorem storedDate_dateForm {withTime : Bool} {value : Json}
    (h : (dateLeaf withTime).Settled value) :
    storedDate withTime (some (.str (dateForm withTime value))) = value := by
  obtain ⟨s, rfl, hcanonical⟩ := h.eq_date
  have hread := canonicalDate?_dateForm hcanonical
  have hblank : ¬ Text.isBlankText (dateForm withTime (.str s)) = true := by
    intro hblank
    cases hread.symm.trans (canonicalDate?_of_isBlankText hblank)
  rw [storedDate, if_neg hblank, hread]
  rfl

/-- A definition leaves the rule of a text field that of a text, or of a number. -/
theorem TextVariant.described_base (variant : TextVariant) (d : ComponentDefinition) :
    (variant = .number ∧ ∃ c a, described d variant.base = .leaf (.number c) a) ∨
      (variant ≠ .number ∧ ∃ c a, described d variant.base = .leaf (.text c) a) := by
  have htext : ∀ c, ∃ c' a, described d (.leaf (.text c) {}) = .leaf (.text c') a := by
    intro c
    obtain ⟨kind, a, hdescribed, hsort, -⟩ := described_leaf d (.text c) {}
    cases kind with
    | text c' => exact ⟨c', a, hdescribed⟩
    | _ => exact nomatch hsort
  cases variant with
  | number =>
      obtain ⟨kind, a, hdescribed, hsort, -⟩ := described_leaf d (.number {}) {}
      obtain ⟨c, rfl⟩ := Leaf.sort_eq_number hsort
      exact .inl ⟨rfl, c, a, hdescribed⟩
  | _ => exact .inr ⟨nofun, htext _⟩

theorem storedText_formText {variant : TextVariant} {d : ComponentDefinition} {value : Json}
    (h : (described d variant.base).Settled value) :
    variant.stored (some (.str value.formText)) =
      (Component.single (.text variant) d).regained value := by
  rcases variant.described_base d with ⟨rfl, c, a, hdescribed⟩ | ⟨hnumber, c, a, hdescribed⟩
  · rw [hdescribed] at h
    cases h with
    | one h _ =>
        obtain ⟨x, rfl, -⟩ := h.eq_num
        obtain ⟨n, hn⟩ := Leaf.numberValue_eq_num x
        obtain ⟨y, hy, -⟩ := Leaf.numberOf?_formText x
        have hblank : ¬ Text.isBlankText (Leaf.numberValue x).formText = true := fun hblank =>
          nomatch hy.symm.trans (Leaf.numberOf?_of_isBlankText hblank)
        rw [TextVariant.stored, if_neg hblank, if_pos rfl, numberOfText_formText, hn]
        rfl
  · rw [hdescribed] at h
    cases h with
    | one h _ =>
        obtain ⟨s, rfl⟩ := h.eq_str
        show variant.stored (some (.str s)) = _
        rw [TextVariant.stored, if_neg hnumber]
        rfl

/-! ## Dates in parts -/

theorem partNumber?_toString {n : Nat} (h : n < word32Limit) :
    partNumber? (some (.str (toString n))) = some n := by
  have htrim : Text.trim (toString n) = toString n := by
    have hdigits := isDigit_of_mem_toString (n := n)
    rw [Text.trim, trimmed_of_not_blank fun c hc => isBlank_of_isDigit (hdigits c hc),
      String.ofList_toList]
  rw [partNumber?, htrim]
  exact word32OfText?_toString h

/-- The parts of a moment make the moment again, but for its seconds. -/
theorem SubmittedDate.assembled?_of_moment {withTime : Bool} {name : String} {data : FormData}
    {moment : DateTime} (hrange : moment.date.inAnswerRange = true)
    (hdata : ∀ key, data.get? key = (Fields.ofList (partsOfMoment withTime name moment)).get? key) :
    (SubmittedDate.of withTime name data).assembled? =
      some (if withTime then moment.toMinute.canonical else moment.date.canonical) := by
  have hm := DateTime.inRange_parts hrange
  have hpart {i n : Nat} (part : DatePart) (hpart : (datePartsOf withTime)[i]? = some part)
      (hn : moment.numbers[i]? = some n) (hless : n < word32Limit) :
      partNumber? (data.get? (partName name part.key)) = some n := by
    rw [hdata, get?_partsOfMoment hpart hn]
    exact partNumber?_toString hless
  have hyear : (moment.date.year.natAbs : Int) = moment.date.year :=
    Int.natAbs_of_nonneg (by have := hm.year_low; exact Int.le_trans (by decide) this)
  have hdate : Date.of? moment.date.year.natAbs moment.date.month moment.date.day =
      some moment.date := by
    rw [hyear]
    exact dif_pos moment.date.isDate
  have hword {n limit : Nat} (h : n ≤ limit) (hlimit : limit < word32Limit) : n < word32Limit :=
    Nat.lt_of_le_of_lt h hlimit
  have hyearWord : moment.date.year.natAbs < word32Limit := by
    have hhigh : moment.date.year ≤ 9999 := hm.year_high
    have hnat : moment.date.year.natAbs ≤ 9999 := by omega
    exact hword hnat (by decide)
  have hdayWord : moment.date.day < word32Limit := hword hm.day_high (by decide)
  have hmonthWord : moment.date.month < word32Limit := hword hm.month_high (by decide)
  have hday : partNumber? (data.get? (partName name "day")) = some moment.date.day :=
    hpart (i := 0) dateParts[0] (by cases withTime <;> rfl) rfl hdayWord
  have hmonth : partNumber? (data.get? (partName name "month")) = some moment.date.month :=
    hpart (i := 1) dateParts[1] (by cases withTime <;> rfl) rfl hmonthWord
  have hyear : partNumber? (data.get? (partName name "year")) = some moment.date.year.natAbs :=
    hpart (i := 2) dateParts[2] (by cases withTime <;> rfl) rfl hyearWord
  cases withTime with
  | false =>
      simp only [assembled?, SubmittedDate.of, time?, hday, hmonth, hyear, hdate, Bool.false_eq_true,
        if_false, Option.isSome_none, Option.bind_eq_bind, Option.bind_some, Option.pure_def]
  | true =>
      have hhour : partNumber? (data.get? (partName name "hour")) = some moment.time.hour :=
        hpart (i := 3) timeParts[0] rfl rfl (hword hm.hour (by decide))
      have hminute : partNumber? (data.get? (partName name "minute")) = some moment.time.minute :=
        hpart (i := 4) timeParts[1] rfl rfl (hword hm.minute (by decide))
      have htime : Time.of? moment.time.hour moment.time.minute 0 = some moment.toMinute.time :=
        dif_pos ⟨moment.time.hour_lt, moment.time.minute_lt, by decide⟩
      have hmoment : (⟨moment.date, moment.toMinute.time⟩ : DateTime) = moment.toMinute := rfl
      simp only [assembled?, SubmittedDate.of, time?, if_true, hday, hmonth, hyear, hdate, hhour,
        hminute, htime, hmoment, Option.isSome_some, Option.bind_eq_bind, Option.bind_some,
        Option.pure_def]

theorem storedDateParts_datePartsForm {withTime : Bool} {d : ComponentDefinition} {value : Json}
    (h : (described d (dateBase withTime)).Settled value) {data : FormData}
    (hdata : ∀ key, data.get? key =
      (datePartsForm withTime d.nameText (answer d.nameText value)).get? key) :
    (SubmittedDate.of withTime d.nameText data).stored =
      (Component.single (.dateParts withTime) d).regained value := by
  obtain ⟨s, rfl, hcanonical⟩ := (settled_dateLeaf h).eq_date
  have hstate := Component.get?_answer d.nameText (.str s)
  cases withTime with
  | false =>
      obtain ⟨date, hdate, hs⟩ := Option.map_eq_some_iff.mp hcanonical
      have hmoment : (Date.ofText? s).map Date.atMidnight = some date.atMidnight := by rw [hdate]; rfl
      rw [@datePartsForm_of_moment false _ _ _ _ hstate hmoment] at hdata
      rw [SubmittedDate.stored, SubmittedDate.assembled?_of_moment
        (Date.inAnswerRange_of_ofText? hdate : date.atMidnight.date.inAnswerRange = true) hdata]
      exact congrArg Json.str hs
  | true =>
      obtain ⟨moment, hmoment, -⟩ := Option.map_eq_some_iff.mp hcanonical
      rw [@datePartsForm_of_moment true _ _ _ _ hstate hmoment] at hdata
      rw [SubmittedDate.stored, SubmittedDate.assembled?_of_moment
        (DateTime.inAnswerRange_of_ofText? hmoment) hdata]
      simp [Component.regained, hmoment]

/-! ## Addresses -/

/-- A part of a stored address is a text that has nothing to trim, if it is there. -/
theorem AddressPart.eq_trimmed {part : AddressPart} {d : ComponentDefinition} {name : String}
    {siblings : Option Fields} {value : Json}
    (h : (part.rule d).check {} name siblings (some value) = ⟨some value, []⟩) :
    ∃ text, value = .str text ∧ Text.trim text = text := by
  obtain ⟨c, hleaf, htrim⟩ := part.leaf_eq_text
  rw [part.rule_eq d, hleaf] at h
  have hfield : (Rule.leaf (.text c) { label := some part.label }).IsField :=
    .one (by rintro ⟨⟩)
  obtain ⟨converted, hcheck, hmem | hsettled⟩ :=
    Rule.settled_or_mem_of_check ((Rule.isField_asked ..).mpr hfield)
      (by rw [Rule.attributes_asked]; exact blanks_welcome (.inr rfl) _)
      (congrArg Checked.failures h)
  · cases h.symm.trans hcheck
    rw [Rule.attributes_asked] at hmem
    exact ⟨"", (mem_welcome_iff.mp hmem).1, rfl⟩
  · cases h.symm.trans hcheck
    rw [Rule.settled_asked] at hsettled
    cases hsettled with
    | one hsettled _ =>
        obtain ⟨text, rfl⟩ := hsettled.eq_str
        exact ⟨text, rfl, hsettled.trim_eq htrim⟩

section

variable {d : ComponentDefinition} {address : Fields}
  (h : Rule.SettledMembers (addressKeys d) address)

include h

theorem storedPart_cases {part : AddressPart} (hpart : part ∈ addressParts) :
    Text.trim (storedPart address part) = storedPart address part ∧
      (address.get? part.key = none ∨
        address.get? part.key = some (.str (storedPart address part))) := by
  have hpass := h.passes _ (mem_addressKeys d hpart) {} none
  unfold storedPart
  cases hvalue : address.get? part.key with
  | none => exact ⟨rfl, .inl rfl⟩
  | some value =>
      rw [hvalue] at hpass
      obtain ⟨text, rfl, htrim⟩ := AddressPart.eq_trimmed hpass
      exact ⟨htrim, .inr rfl⟩

theorem storedAddress_addressForm {name : String} {data : FormData}
    (hdata : ∀ key, data.get? key = (addressForm name (answer name (.obj address))).get? key) :
    storedAddress name data = (Component.single .address d).regained (.obj address) := by
  refine (storedAddress_eq_addressOf name data).trans (addressOf_congr fun part hpart => ?_)
  have hinput : (addressForm name (answer name (.obj address))).get? (partName name part.key) =
      some (.str (storedPart address part)) := by
    rw [addressForm, Component.get?_answer]
    refine Fields.get?_ofList_of_mem ?_ (List.mem_map_of_mem hpart)
    rw [List.map_map]
    have hnames := nodup_addressParts.map (partName_injective name)
    rwa [List.map_map] at hnames
  rw [addressText, hdata, hinput]
  exact (storedPart_cases h hpart).1

/-- An address is regained when it has all its parts, and they are not all empty. -/
theorem addressOf_storedPart_eq_iff :
    addressOf (storedPart address) = .obj address ↔
      (∀ part ∈ addressParts, (address.get? part.key).isSome = true) ∧
        ∃ part ∈ addressParts, address.get? part.key ≠ some (.str "") := by
  have hget : ∀ part ∈ addressParts, Fields.get? (Fields.ofList (addressParts.map fun part =>
      (part.key, .str (storedPart address part)))) part.key =
        some (.str (storedPart address part)) := by
    intro part hpart
    refine Fields.get?_ofList_of_mem ?_ (List.mem_map_of_mem hpart)
    rw [List.map_map]
    exact nodup_addressParts
  unfold addressOf
  split
  · next hempty =>
    simp only [List.all_eq_true, decide_eq_true_eq] at hempty
    refine ⟨nofun, fun ⟨hthere, part, hpart, hne⟩ => ?_⟩
    rcases (storedPart_cases h hpart).2 with hnone | htext
    · exact nomatch hnone ▸ hthere part hpart
    · exact absurd (hempty part hpart ▸ htext) hne
  · next hsome =>
    rw [Json.obj.injEq]
    constructor
    · intro heq
      rw [heq] at hget
      refine ⟨fun part hpart => by rw [hget part hpart]; rfl, ?_⟩
      by_contra hblank
      refine hsome (List.all_eq_true.mpr fun part hpart => decide_eq_true ?_)
      have hempty : address.get? part.key = some (.str "") := by
        by_contra hne
        exact hblank ⟨part, hpart, hne⟩
      exact Json.str.inj (Option.some.inj ((hget part hpart).symm.trans hempty))
    · rintro ⟨hthere, -⟩
      refine (Fields.ordered_ofList _).ext h.ordered fun key => ?_
      by_cases hkey : ∃ part ∈ addressParts, part.key = key
      · obtain ⟨part, hpart, rfl⟩ := hkey
        rw [hget part hpart]
        rcases (storedPart_cases h hpart).2 with hnone | htext
        · exact nomatch hnone ▸ hthere part hpart
        · exact htext.symm
      · -- Neither has a member that is no part of an address.
        rw [Fields.get?_eq_none, Fields.get?_eq_none]
        · rintro member hmember rfl
          have hknown := h.known member hmember
          rw [Keys.has_iff_mem_names, addressKeys_eq, Keys.names, List.map_map] at hknown
          obtain ⟨part, hpart, heq⟩ := List.mem_map.mp hknown
          exact hkey ⟨part, hpart, heq⟩
        · rintro member hmember rfl
          obtain ⟨part, hpart, rfl⟩ :=
            List.mem_map.mp ((Fields.mem_of_mem_extend hmember).resolve_right List.not_mem_nil)
          exact hkey ⟨part, hpart, rfl⟩

end

/-! ## Fields -/

/-- A choice that no field stands behind stores nothing besides its own answer. -/
theorem revealedToState_eq_nil {payload : FormData} {chooser : String} {type : ListType}
    {reveals : List (Nat × Json × List Component)}
    (h : revealedQuestions chooser type reveals = []) :
    revealedToState payload (storedChoice type (payload.get? chooser)) [] reveals = [] := by
  cases hstate : revealedToState payload (storedChoice type (payload.get? chooser)) [] reveals with
  | nil => rfl
  | cons member rest =>
      have hmember : (revealedToState payload (storedChoice type (payload.get? chooser)) []
          reveals).get? member.1 = some member.2 := by
        obtain ⟨key, value⟩ := member
        rw [hstate, Fields.get?_cons, if_pos rfl]
      obtain ⟨q, hq, -⟩ := exists_question_of_revealed payload reveals rfl hmember
      rw [h] at hq
      exact nomatch hq

namespace Component

/-- Whether a stored answer is stored again once it has been submitted. -/
def Regains : Component → Json → Prop
  | .single (.text _) _, .str s => Text.isBlankText s = false
  | .single (.dateParts true) _, .str s =>
    ∀ moment, DateTime.ofText? s = some moment → moment.time.second = 0
  | .single .address _, .obj address =>
    (∀ part ∈ addressParts, (Fields.get? address part.key).isSome = true) ∧
      ∃ part ∈ addressParts, Fields.get? address part.key ≠ some (.str "")
  | _, _ => True

variable {c : Component} {value : Json} (hfield : c.IsBuiltinField = true)
include hfield

theorem toState_of_sole (hsole : c.questions = [⟨c, []⟩]) (data : FormData) :
    Questionnaire.toState [c] data = answer c.name (c.stored data) := by
  have halone (name : String) (value : Json) :
      Fields.extend [] (answer name value) = answer name value := rfl
  cases c with
  | single kind d =>
      show Fields.extend [] (kind.toState d data) = _
      cases kind with
      | content _ => cases hfield
      | plain => cases hfield
      | _ => exact halone ..
  | choice variant d list reveals =>
      have hnone := (List.cons.inj hsole).2
      show Fields.extend [] (Component.toState data (.choice variant d list reveals)) = _
      rw [Component.toState, revealedToState_eq_nil hnone]
      exact halone ..

/-- What a field makes of the form data of its stored answer. -/
theorem stored_ownForm (h : c.core.Settled value) {data : FormData}
    (hdata : ∀ key, data.get? key = (c.ownForm (answer c.name value)).get? key) :
    c.stored data = c.regained value := by
  have hstate := get?_answer c.name value
  cases c with
  | single kind d =>
      cases kind with
      | text variant =>
          have hinput : data.get? d.nameText = some (.str value.formText) := by
            rw [hdata]
            show (scalarForm d.nameText _).get? _ = _
            rw [scalarForm, show (answer _ value).get? d.nameText = _ from hstate]
            exact get?_answer _ _
          show variant.stored (data.get? d.nameText) = _
          rw [hinput]
          exact storedText_formText h
      | date withTime =>
          have hinput : data.get? d.nameText = some (.str (dateForm withTime value)) := by
            rw [hdata]
            have hvalue : (answer _ value).get? d.nameText = some value := hstate
            simp only [ownForm, SingleKind.toForm, hvalue]
            exact get?_answer _ _
          show storedDate withTime (data.get? d.nameText) = _
          rw [hinput]
          exact storedDate_dateForm (settled_dateLeaf h)
      | dateParts withTime => exact storedDateParts_datePartsForm h hdata
      | address =>
          cases h with
          | members h => exact storedAddress_addressForm h hdata
      | content _ => cases hfield
      | plain => cases hfield
  | choice variant d list reveals =>
      have hinput : data.get? d.nameText = some (choiceForm value) := by
        rw [hdata]
        simp only [ownForm, show (answer _ value).get? d.nameText = _ from hstate]
        exact get?_answer _ _
      show storedChoice list.type (data.get? d.nameText) = _
      rw [hinput]
      exact storedChoice_choiceForm h

/-- An answer is regained as it was. -/
theorem regained_eq_iff (h : c.core.Settled value) : c.regained value = value ↔ c.Regains value := by
  cases c with
  | single kind d =>
      cases kind with
      | text variant =>
          cases value with
          | str s =>
              simp only [regained, Regains]
              split
              · next hblank => simp [hblank]
              · next hblank => simp [hblank]
          | _ => exact iff_of_true rfl trivial
      | dateParts withTime =>
          obtain ⟨s, rfl, hcanonical⟩ := (settled_dateLeaf h).eq_date
          cases withTime with
          | false => exact iff_of_true rfl trivial
          | true =>
              obtain ⟨moment, hmoment, hs⟩ := Option.map_eq_some_iff.mp hcanonical
              have hrange := DateTime.inAnswerRange_of_ofText? hmoment
              simp only [regained, Regains, hmoment, Option.map_some, Option.getD_some,
                Json.str.injEq, Option.some.injEq, forall_eq']
              rw [← hs]
              constructor
              · intro heq
                have hminute : moment.toMinute.date.inAnswerRange = true := hrange
                have hread := congrArg DateTime.ofText? heq
                rw [DateTime.ofText?_canonical hminute, DateTime.ofText?_canonical hrange] at hread
                exact (congrArg (·.time.second) (Option.some.inj hread)).symm
              · exact fun hsecond => congrArg DateTime.canonical (moment.toMinute_eq hsecond)
      | address =>
          cases h with
          | members h => exact addressOf_storedPart_eq_iff h
      | content _ => cases hfield
      | plain => cases hfield
      | date withTime => exact iff_of_true rfl trivial
  | choice variant d list reveals => exact iff_of_true rfl trivial

end Component

/-- A field that stands alone leaves alone what the rule for the state leaves as it is. -/
theorem settled_of_validate {c : Component} (hfield : c.IsBuiltinField = true)
    (hallow : c.definition.constraints.allow = none) (hsole : c.questions = [⟨c, []⟩]) {value : Json}
    (hnull : value ≠ .null)
    (hvalid : (stateSchema [c]).validate {} (.obj (answer c.name value)) =
      .ok (.obj (answer c.name value))) : c.core.Settled value := by
  obtain ⟨haccepts, hsame⟩ := Rule.validate_ofKeys_eq_ok_iff.mp hvalid
  rw [← Side.groupKeys_state] at haccepts hsame
  have hquestions : questions [c] = [⟨c, []⟩] := by
    rw [questions, questions, List.append_nil, hsole]
  have hmem : ⟨c, []⟩ ∈ questions [c] := hquestions ▸ List.mem_singleton_self _
  have hown : (c.name, c.core.asked (!c.definition.isOptional)
      (welcome Side.state.blank c.definition.isOptional)) ∈ Side.state.own c := by
    rw [Component.own_state (isForm_of_mem_questions [c] hmem), ownState_eq_asked hfield hallow]
    exact List.mem_singleton_self _
  rcases Side.converted_cases haccepts (.inl rfl) hmem hown (isField_core hfield hallow)
    fun other hother _ => List.mem_singleton.mp (hquestions ▸ hother) with
    ⟨hnone, -⟩ | ⟨_, member, -, hmember, hcases⟩
  · cases hnone.symm.trans (Component.get?_answer c.name value)
  · rw [Side.converted, ← Json.obj.inj hsame, Component.get?_answer] at hmember
    obtain rfl := Option.some.inj hmember
    exact hcases.resolve_left fun hwelcome => hnull hwelcome.1

/-- What a field that reveals no other makes of a stored answer that it submits again. It is the same
answer, but for a text of blanks, a moment with seconds whose parts are entered, and an address that
lacks parts or has only empty ones. -/
theorem Component.toState_toForm {c : Component} (hfield : c.IsBuiltinField = true)
    (hallow : c.definition.constraints.allow = none) (hsole : c.questions = [⟨c, []⟩]) {value : Json}
    (hnull : value ≠ .null)
    (hvalid : (stateSchema [c]).validate {} (.obj (answer c.name value)) =
      .ok (.obj (answer c.name value))) :
    Questionnaire.toState [c] (Questionnaire.toForm [c] (answer c.name value)) =
        answer c.name (c.regained value) ∧
      (Questionnaire.toState [c] (Questionnaire.toForm [c] (answer c.name value)) =
          answer c.name value ↔ c.Regains value) := by
  have hsettled := settled_of_validate hfield hallow hsole hnull hvalid
  have hform : ∀ key, (Questionnaire.toForm [c] (answer c.name value)).get? key =
      (c.ownForm (answer c.name value)).get? key := by
    intro key
    rw [Questionnaire.toForm, Questionnaire.get?_toForm, Questionnaire.questions,
      Questionnaire.questions, List.append_nil, hsole]
    simp
  rw [toState_of_sole hfield hsole, stored_ownForm hfield hsettled hform,
    ← regained_eq_iff hfield hsettled]
  exact ⟨rfl, by simp [answer]⟩

/-! ## A delivery -/

/-- Where to deliver. -/
def deliveryField : Component :=
  .single .address { type := "UkAddressField", name := some "delivery", title := some "Delivery" }

/-- An address as a form stores it. -/
def deliveryAddress : Json :=
  .obj [("locality", .str ""), ("postcode", .str "SW1A 2AA"), ("premises", .str "10"),
    ("street", .str "Downing Street"), ("town", .str "London")]

/-- It comes back as it was. -/
theorem Component.toState_toForm_delivery :
    Questionnaire.toState [deliveryField]
        (Questionnaire.toForm [deliveryField] (answer "delivery" deliveryAddress)) =
      answer "delivery" deliveryAddress := by
  have hnull : deliveryAddress ≠ .null := nofun
  have hvalid : (stateSchema [deliveryField]).validate {}
      (.obj (answer deliveryField.name deliveryAddress)) =
        .ok (.obj (answer deliveryField.name deliveryAddress)) := by
    decide +kernel
  have hregains : deliveryField.Regains deliveryAddress :=
    ⟨by decide, _, List.mem_cons_self .., by decide⟩
  exact (Component.toState_toForm (c := deliveryField) rfl rfl rfl hnull hvalid).2.mpr hregains

/-- A field that reveals no other loses a stored answer that its rule leaves as it is. -/
def Component.Loses (c : Component) (value : Json) : Prop :=
  c.IsBuiltinField = true ∧ c.definition.constraints.allow = none ∧ c.questions = [⟨c, []⟩] ∧
    value ≠ .null ∧
    (stateSchema [c]).validate {} (.obj (answer c.name value)) = .ok (.obj (answer c.name value)) ∧
    Questionnaire.toState [c] (Questionnaire.toForm [c] (answer c.name value)) ≠ answer c.name value

/-- A text whose blanks are kept. -/
def remarkField : Component :=
  .single (.text .line)
    { type := "TextField", name := some "remark", constraints := { trim := some false } }

/-- A moment whose parts are entered. -/
def departureField : Component :=
  .single (.dateParts true) { type := "DateTimePartsField", name := some "departure" }

/-- An address that may be left out. -/
def billingField : Component :=
  .single .address
    { type := "UkAddressField", name := some "billing", options := { required := some false } }

/-- Blanks, seconds, parts that are missing and an address of empty parts are not kept. -/
theorem Component.exists_loses :
    remarkField.Loses (.str "  ") ∧ departureField.Loses (.str "2024-03-05T14:30:45") ∧
      deliveryField.Loses
        (.obj [("postcode", .str "SW1A 2AA"), ("premises", .str "10"), ("town", .str "London")]) ∧
      billingField.Loses
        (.obj (Fields.ofList (addressParts.map fun part => (part.key, .str "")))) := by
  refine ⟨?_, ?_, ?_, ?_⟩ <;>
    exact ⟨rfl, rfl, rfl, nofun, by decide +kernel, by decide +kernel⟩

end Questionnaire
