import Questionnaire.Page.Basic
import Questionnaire.Proofs.Component.Answers
import Questionnaire.Proofs.Json.RoundTrip
import Questionnaire.Proofs.Rule.Taking

/-!
# How deep answers are nested

Nothing that is done to a payload nests it deeper. A rule converts a value to one that is nested no
deeper (`Rule.Takes.wellNested`), and so do the conversions of components
(`Page.wellNested_toState`), of which only an address makes an object. So the answers of a page are
nested no deeper than the payload (`Page.wellNested_answers`), and a section adds one step.
-/

namespace Questionnaire

open Json

theorem Json.wellNested_of_isScalar {value : Json} (h : value.isScalar = true) (depth : Nat) :
    value.WellNested depth := by
  cases value with
  | bool _ => exact .bool
  | num number => exact wellNested_num number depth
  | str _ => exact .str
  | null | arr _ | obj _ => exact nomatch h

/-! ## Rules -/

/-- A kind of value converts a value to one that is nested no deeper. -/
theorem Leaf.wellNested_of_check {kind : Leaf} {allowsEmpty : Bool} {label : String}
    {value converted : Json} {depth : Nat}
    (h : kind.check allowsEmpty label value = .pass converted) (hvalue : value.WellNested depth) :
    converted.WellNested depth := by
  by_cases hkind : kind = .any
  · subst hkind
    cases h
    exact hvalue
  · obtain ⟨w, hw, hsettled⟩ := settled_of_check hkind (congrArg Checked.failures h)
    cases h.symm.trans hw
    rcases hsettled with hsettled | ⟨-, rfl⟩
    · exact wellNested_of_isScalar (hsettled.isScalar hkind) depth
    · exact .str

namespace Rule

section

variable {options : ValidationOptions} {siblings : Option Fields}

/-- A member that has a rule is what the rule makes of the member there was. -/
theorem exists_check_of_mem_checkKeys {keys : Keys} {fields : Fields} {member : String × Json}
    (h : member ∈ (checkKeys options keys fields).1) :
    ∃ rule, (member.1, rule) ∈ keys ∧
      (rule.check options member.1 (some fields) (fields.get? member.1)).value = some member.2 := by
  induction keys with
  | nil => exact nomatch h
  | cons entry rest ih =>
      obtain ⟨key, rule⟩ := entry
      rw [checkKeys_cons] at h
      dsimp only at h
      split at h
      · next value hvalue =>
        rcases Fields.mem_insert h with rfl | h
        · exact ⟨rule, .head _, hvalue⟩
        · exact (ih h).imp fun _ => And.imp_left (.tail _)
      · exact (ih h).imp fun _ => And.imp_left (.tail _)

theorem EachItem.wellNested {takes : Json → Json → Prop} {value converted : Json} {depth : Nat}
    (h : EachItem takes value converted) (hvalue : value.WellNested depth)
    (hitem : ∀ {x y : Json} {depth : Nat}, takes x y → x.WellNested depth → y.WellNested depth) :
    converted.WellNested depth := by
  obtain ⟨h⟩ := h
  obtain - | - | - | - | - | hitems | - := hvalue
  refine .arr ?_
  induction h with
  | nil => exact List.forall_mem_nil _
  | cons htakes _ ih =>
      obtain ⟨hfirst, hrest⟩ := List.forall_mem_cons.mp hitems
      exact List.forall_mem_cons.mpr ⟨hitem htakes hfirst, ih hrest⟩

/-- A member without a rule is one of those given, and the others are what their rules make. -/
theorem EachMember.wellNested {keys : Keys} {unknown : Bool} {value converted : Json} {depth : Nat}
    (h : EachMember options keys unknown value converted) (hvalue : value.WellNested depth)
    (hrules : ∀ entry ∈ keys, ∀ {siblings : Option Fields} {value : Option Json} {made : Json}
      {depth : Nat}, entry.2.Takes options siblings value (some made) →
        (∀ given, value = some given → given.WellNested depth) → made.WellNested depth) :
    converted.WellNested depth := by
  obtain ⟨hknown, hunknown⟩ := h
  obtain - | - | - | - | - | - | ⟨-, hmembers⟩ := hvalue
  refine .obj ((ordered_checkKeys options keys _).extend _) fun member hmember => ?_
  rcases Fields.mem_of_mem_extend hmember with hmember | hmember
  · rw [checkUnknown_eq_filter hunknown] at hmember
    exact hmembers member (List.mem_filter.mp hmember).1
  · obtain ⟨rule, hrule, hmade⟩ := exists_check_of_mem_checkKeys hmember
    have hpasses := checkKeys_failures_eq_nil_iff.mp hknown _ hrule
    have htakes := (takes_iff member.1).mpr (hmade ▸ Checked.eq_of_passes hpasses)
    exact hrules _ hrule htakes fun given hgiven => hmembers _ (Fields.mem_of_get? hgiven)

/-- A rule makes of a value one that is nested no deeper. -/
theorem Takes.wellNested {rule : Rule} {value : Option Json} {converted : Json} {depth : Nat}
    (h : rule.Takes options siblings value (some converted))
    (hvalue : ∀ given, value = some given → given.WellNested depth) : converted.WellNested depth := by
  induction rule using Rule.induction generalizing siblings value converted depth with
  | leaf kind a =>
      rw [takes_leaf_iff] at h
      rcases h with - | - | ⟨-, ⟨-, hcheck⟩, -⟩
      · exact hvalue _ rfl
      · exact Leaf.wellNested_of_check hcheck (hvalue _ rfl)
  | object keys unknown a ih =>
      rw [Takes, check_object_eq_iff] at h
      rcases h with - | - | ⟨-, h, -⟩
      · exact hvalue _ rfl
      · exact EachMember.wellNested h (hvalue _ rfl) fun entry hentry => ih entry hentry
  | array item a ih =>
      rw [takes_array_iff] at h
      rcases h with - | - | ⟨-, h, -⟩
      · exact hvalue _ rfl
      · refine h.wellNested (hvalue _ rfl) fun htakes hx => ih htakes ?_
        rintro _ ⟨⟩
        exact hx
  | alternatives rules a ih =>
      rw [takes_alternatives_iff] at h
      rcases h with - | - | ⟨-, ⟨-, before, rule, after, rfl, hfirst⟩, -⟩
      · exact hvalue _ rfl
      · exact ih rule (by simp) hfirst.takes hvalue
  | choose sibling is revealed hidden a ihr ihh =>
      rw [takes_choose_iff] at h
      split at h
      · exact ihr h hvalue
      · exact ihh h hvalue

end

end Rule

/-- What a page accepts of an object is nested no deeper. -/
theorem Page.wellNested_validate {page : Page} {rule : Rule} {fields converted : Fields}
    {depth : Nat} (h : page.validate rule fields = .ok converted)
    (hfields : (Json.obj fields).WellNested depth) : (Json.obj converted).WellNested depth := by
  unfold Page.validate at h
  split at h
  · next hvalid =>
    cases h
    refine (Rule.validate_eq_ok_iff.mp hvalid).wellNested ?_
    rintro _ ⟨⟩
    exact hfields
  · cases h
    obtain - | - | - | - | - | - | ⟨-, -⟩ := hfields
    exact .obj Fields.Ordered.nil (List.forall_mem_nil _)
  · cases h

/-! ## Conversions -/

section

variable {depth : Nat}

theorem wellNested_numberOfText (s : String) : (numberOfText s).WellNested depth := by
  unfold numberOfText
  dsimp only
  split
  · exact wellNested_num _ depth
  · split
    · exact .float trivial
    · exact .str

theorem TextVariant.wellNested_stored (variant : TextVariant) {value : Option Json}
    (h : ∀ given, value = some given → given.WellNested depth) :
    (variant.stored value).WellNested depth := by
  unfold stored
  split
  · exact .null
  · split
    · exact .null
    · split
      · exact wellNested_numberOfText _
      · exact .str
  · exact h _ rfl

theorem wellNested_storedDate (withTime : Bool) (value : Option Json) :
    (storedDate withTime value).WellNested depth := by
  unfold storedDate
  split
  · split
    · exact .null
    · exact .str
  · exact .null

theorem SubmittedDate.wellNested_stored (parts : SubmittedDate) :
    parts.stored.WellNested depth := by
  unfold stored
  split
  · exact .str
  · split
    · exact .null
    · exact .str

theorem wellNested_storedAddress (name : String) (payload : FormData) :
    (storedAddress name payload).WellNested (depth + 1) := by
  unfold storedAddress
  split
  · exact .null
  · refine .obj (Fields.ordered_ofList _) fun member hmember => ?_
    have hpart := (Fields.mem_of_mem_extend hmember).resolve_right List.not_mem_nil
    obtain ⟨part, -, rfl⟩ := List.mem_map.mp hpart
    exact .str

theorem wellNested_storedPlain {value : Option Json}
    (h : ∀ given, value = some given → given.WellNested depth) :
    (storedPlain value).WellNested depth := by
  unfold storedPlain
  split
  · split
    · exact .null
    · exact .str
  · exact h _ rfl
  · exact .null

theorem ListType.wellNested_coerce (type : ListType) {value : Json} (h : value.WellNested depth) :
    (type.coerce value).WellNested depth := by
  unfold coerce
  split
  · exact wellNested_numberOfText _
  · dsimp only
    split
    · exact .bool
    · split
      · exact .bool
      · exact h
  · exact h

theorem wellNested_storedChoice (type : ListType) {value : Option Json}
    (h : ∀ given, value = some given → given.WellNested depth) :
    (storedChoice type value).WellNested depth := by
  unfold storedChoice
  split
  · exact .null
  · obtain - | - | - | - | - | hitems | - := h _ rfl
    refine .arr fun item hitem => ?_
    obtain ⟨given, hgiven, rfl⟩ := List.mem_map.mp hitem
    exact type.wellNested_coerce (hitems given hgiven)
  · split
    · exact .null
    · exact type.wellNested_coerce (h _ rfl)

theorem Component.wellNested_stored {payload : FormData}
    (h : ∀ member ∈ payload, member.2.WellNested (depth + 1)) (c : Component) :
    (c.stored payload).WellNested (depth + 1) := by
  have hget (name : String) :
      ∀ given, payload.get? name = some given → given.WellNested (depth + 1) :=
    fun given hgiven => h _ (Fields.mem_of_get? hgiven)
  cases c with
  | single kind d =>
      cases kind with
      | text variant => exact variant.wellNested_stored (hget _)
      | date withTime => exact wellNested_storedDate withTime _
      | dateParts withTime => exact SubmittedDate.wellNested_stored _
      | address => exact wellNested_storedAddress _ payload
      | content variant => exact .null
      | plain => exact wellNested_storedPlain (hget _)
  | choice variant d list reveals => exact wellNested_storedChoice list.type (hget _)

end

namespace Page

variable {page : Page} {payload : FormData} {depth : Nat}

/-- The state that a page makes of submitted data is nested no deeper, if there is room for an
address. -/
theorem wellNested_toState (page : Page) (h : (Json.obj payload).WellNested (depth + 2)) :
    (Json.obj (page.toState payload)).WellNested (depth + 2) := by
  obtain - | - | - | - | - | - | ⟨-, hmembers⟩ := h
  have hordered := ordered_addToState payload page.components Fields.Ordered.nil
  refine .obj hordered fun member hmember => ?_
  obtain ⟨q, -, -, -, hvalue⟩ := exists_question payload page.components
    (hordered.get?_of_mem hmember)
  rw [hvalue]
  exact q.field.wellNested_stored hmembers

/-- The update that a page makes of a payload has the section as one more step. -/
theorem wellNested_answers {answers : State} (h : page.answers payload = .ok answers)
    (hpayload : (Json.obj payload).WellNested (depth + 2)) :
    (Json.obj (page.asUpdate answers)).WellNested (depth + 3) := by
  unfold Page.answers at h
  split at h
  · exact nomatch h
  · next data hdata =>
    have hanswers :=
      wellNested_validate h (page.wellNested_toState (wellNested_validate hdata hpayload))
    unfold asUpdate
    split
    · exact .obj (List.pairwise_singleton _ _) (List.forall_mem_singleton.mpr hanswers)
    · exact hanswers.mono (Nat.le_succ _)

end Page

end Questionnaire
