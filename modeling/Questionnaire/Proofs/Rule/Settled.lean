import Questionnaire.Proofs.Rule.Taking

/-!
# Values that a rule leaves alone

A check converts what it accepts: a text is trimmed, a number read, a date made canonical. What has
been converted once is converted to itself from then on (`settled_or_mem_of_check`,
`Settled.check_eq`), by the same rule and by every rule that differs from it only in whether the
value must be there and which blanks are welcome (`settled_asked`). The values that stand for no
answer are the exception: they pass as they are where they are welcome, and are refused elsewhere.
-/

namespace Questionnaire

/-! ## Blanks -/

/-- The values that stand for no answer: null in the state, the empty text in a form. -/
def Blanks (allow : List Json) : Prop :=
  ∀ value ∈ allow, value = .null ∨ value = .str ""

theorem blanks_nil : Blanks [] := nofun

theorem same_null_iff {value : Json} : Json.null.same value = true ↔ value = .null := by
  cases value <;> simp [Json.same, Json.unsignedZero]

theorem same_str_iff {s : String} {value : Json} :
    (Json.str s).same value = true ↔ value = .str s := by
  cases value <;> simp [Json.same, Json.unsignedZero, eq_comm]

theorem Attributes.allows_iff {a : Attributes} (h : Blanks a.allow) {value : Json} :
    a.allows value = true ↔ value ∈ a.allow := by
  rw [Attributes.allows, List.any_eq_true]
  constructor
  · rintro ⟨blank, hmem, hsame⟩
    rcases h blank hmem with rfl | rfl
    · rwa [same_null_iff.mp hsame]
    · rwa [same_str_iff.mp hsame]
  · intro hmem
    exact ⟨value, hmem, Json.same_refl value⟩

/-! ## Rules -/

namespace Rule

/-- A value of a kind among some choices, or an array of such values. -/
def severalOf (kind : Leaf) (choices : List Json) (a : Attributes) : Rule :=
  .alternatives
    [.leaf kind { valid := some choices }, .array (.leaf kind { valid := some choices }) {}] a

/-- Whether a rule is that of a part of a composite answer. -/
def IsPart : Rule → Prop
  | .leaf kind a => kind ≠ .any ∧ Blanks a.allow
  | _ => False

/-- The forms that the rule of a field has. -/
inductive IsField : Rule → Prop
  | one {kind : Leaf} {a : Attributes} (hkind : kind ≠ .any) : IsField (.leaf kind a)
  | several {kind : Leaf} {choices : List Json} {a : Attributes} (hkind : kind ≠ .any)
      (hvalid : a.valid = none) : IsField (severalOf kind choices a)
  | members {keys : Keys} {a : Attributes} (hnodup : keys.names.Nodup)
      (hparts : ∀ entry ∈ keys, IsPart entry.2) (hvalid : a.valid = none) :
      IsField (.object keys false a)

/-- Members that the rules of an object leave alone. -/
structure SettledMembers (keys : Keys) (fields : Fields) : Prop where
  ordered : fields.Ordered
  known : ∀ member ∈ fields, keys.has member.1 = true
  passes : ∀ entry ∈ keys, ∀ (options : ValidationOptions) (siblings : Option Fields),
    entry.2.check options entry.1 siblings (fields.get? entry.1) =
      ⟨fields.get? entry.1, []⟩

/-- The values that the rule of a field leaves alone, however it is asked. -/
inductive Settled : Rule → Json → Prop
  | one {kind : Leaf} {a : Attributes} {value : Json} (h : kind.Settled value)
      (hvalid : a.Admits value) : Settled (.leaf kind a) value
  | single {kind : Leaf} {choices : List Json} {a : Attributes} {value : Json}
      (h : kind.Settled value) (hvalid : choices.any (·.looseEq value) = true) :
      Settled (severalOf kind choices a) value
  | many {kind : Leaf} {choices : List Json} {a : Attributes} {items : List Json}
      (h : ∀ item ∈ items, kind.Settled item ∧ choices.any (·.looseEq item) = true) :
      Settled (severalOf kind choices a) (.arr items)
  | members {keys : Keys} {a : Attributes} {fields : Fields} (h : SettledMembers keys fields) :
      Settled (.object keys false a) (.obj fields)

theorem Settled.ne_null {rule : Rule} {value : Json} (h : rule.Settled value) : value ≠ .null := by
  cases h with
  | one h _ => exact h.ne_null
  | single h _ => exact h.ne_null
  | many _ => exact nofun
  | members _ => exact nofun

theorem Settled.ne_empty {rule : Rule} {value : Json} (h : rule.Settled value) :
    value ≠ .str "" := by
  cases h with
  | one h _ => exact h.ne_empty
  | single h _ => exact h.ne_empty
  | many _ => exact nofun
  | members _ => exact nofun

theorem Settled.not_allows {rule : Rule} {value : Json} (h : rule.Settled value) {a : Attributes}
    (hblanks : Blanks a.allow) : a.allows value = false := by
  rw [← Bool.not_eq_true, Attributes.allows_iff hblanks]
  intro hmem
  rcases hblanks value hmem with hnull | hempty
  · exact h.ne_null hnull
  · exact h.ne_empty hempty

/-! ### The frame of a check -/

section

variable {rule : Rule} (options : ValidationOptions) (name : String) (siblings : Option Fields)

theorem IsField.check_none (h : rule.IsField) :
    rule.check options name siblings none =
      if rule.attributes.required then .fail (rule.attributes.label.getD name) .missing
      else ⟨none, []⟩ := by
  cases h with
  | one _ => rw [check]; rfl
  | several _ _ => rw [severalOf, check]; rfl
  | members _ _ _ => rw [check]; rfl

theorem IsField.check_allowed (h : rule.IsField) {value : Json}
    (hallows : rule.attributes.allows value = true) :
    rule.check options name siblings (some value) = .pass value := by
  cases h with
  | one _ => rw [check]; exact if_pos hallows
  | several _ _ => rw [severalOf, check]; exact if_pos hallows
  | members _ _ _ => rw [check]; exact if_pos hallows

theorem IsField.check_null (h : rule.IsField) (hallows : rule.attributes.allows .null = false) :
    (rule.check options name siblings (some .null)).failures ≠ [] := by
  cases h with
  | @one kind a hkind =>
      have hnot : ¬ a.allows .null = true := by simpa [attributes] using hallows
      rw [check]
      simp [Attributes.apply, hnot, hkind]
  | @several kind choices a _ _ =>
      have hnot : ¬ a.allows .null = true := by simpa [severalOf, attributes] using hallows
      rw [severalOf, check]
      simp [Attributes.apply, hnot]
  | @members keys a _ _ _ =>
      have hnot : ¬ a.allows .null = true := by simpa [attributes] using hallows
      rw [check]
      simp [Attributes.apply, hnot]

end

section

variable (options : ValidationOptions) (name : String) (siblings : Option Fields)

/-- A leaf makes of what is given the value that its kind makes of it. -/
theorem check_leaf_of_converts {kind : Leaf} {a : Attributes} {given value : Json}
    (h : ∀ allowsEmpty label, kind.check allowsEmpty label given = .pass value)
    (hvalid : a.Admits value) (hallows : a.allows given = false) (hne : given ≠ .null) :
    (Rule.leaf kind a).check options name siblings (some given) = .pass value := by
  rw [check, Attributes.apply_some hallows hne, h, Attributes.finish_pass hvalid]

theorem check_leaf_of_settled {kind : Leaf} {a : Attributes} {value : Json}
    (h : kind.Settled value) (hvalid : a.Admits value) (hblanks : Blanks a.allow) :
    (Rule.leaf kind a).check options name siblings (some value) = .pass value :=
  check_leaf_of_converts options name siblings h.check_eq hvalid
    ((Settled.one h hvalid).not_allows hblanks) h.ne_null

variable {options name siblings}

theorem settled_of_check_leaf {kind : Leaf} (hkind : kind ≠ .any) {a : Attributes}
    (hblanks : Blanks a.allow) {value : Json} (hallows : a.allows value = false)
    (h : ((Rule.leaf kind a).check options name siblings (some value)).failures = []) :
    ∃ converted, (Rule.leaf kind a).check options name siblings (some value) = .pass converted ∧
      (converted ∈ a.allow ∨ (kind.Settled converted ∧ a.Admits converted)) := by
  have hne : value ≠ .null := by
    rintro rfl
    exact (IsField.one hkind).check_null options name siblings hallows h
  rw [check] at h ⊢
  rw [Attributes.apply_some hallows hne] at h ⊢
  obtain ⟨hfinish, hadmits⟩ := Attributes.finish_of_passes h
  rw [hfinish] at h ⊢
  obtain ⟨converted, hcheck, hconverted⟩ := Leaf.settled_of_check hkind h
  refine ⟨converted, hcheck, ?_⟩
  rcases hadmits converted (by rw [hcheck]; rfl) with hallowed | hadmits
  · exact Or.inl ((Attributes.allows_iff hblanks).mp hallowed)
  · rcases hconverted with hsettled | ⟨hempty, rfl⟩
    · exact Or.inr ⟨hsettled, hadmits⟩
    · exact Or.inl ((Attributes.allows_iff hblanks).mp hempty)

/-! ### Members -/

/-- What the rule of a part makes of a value it leaves alone from then on. -/
theorem IsPart.check_again {rule : Rule} (hpart : rule.IsPart) {value : Option Json}
    (h : (rule.check options name siblings value).failures = []) (options' : ValidationOptions)
    (siblings' : Option Fields) :
    rule.check options' name siblings' (rule.check options name siblings value).value =
      ⟨(rule.check options name siblings value).value, []⟩ := by
  cases rule with
  | leaf kind a => exact check_leaf_again (Checked.eq_of_passes h) options' name siblings'
  | _ => exact hpart.elim

theorem settledMembers_of_accepts {keys : Keys} {fields : Fields} (hnodup : keys.names.Nodup)
    (hparts : ∀ entry ∈ keys, IsPart entry.2) (h : Accepts options keys fields) :
    SettledMembers keys (checkKeys options keys fields).1 := by
  refine ⟨ordered_checkKeys options keys fields, has_of_mem_checkKeys, ?_⟩
  intro entry hentry options' siblings'
  rw [get?_checkKeys options hnodup, Keys.get?_of_mem hnodup hentry]
  exact (hparts entry hentry).check_again (h.passes entry hentry) options' siblings'

theorem SettledMembers.accepts {keys : Keys} {fields : Fields} (h : SettledMembers keys fields)
    (options : ValidationOptions) : Accepts options keys fields :=
  ⟨fun entry hentry => by rw [h.passes entry hentry], h.known⟩

theorem SettledMembers.checkKeys_eq {keys : Keys} {fields : Fields} (hnodup : keys.names.Nodup)
    (h : SettledMembers keys fields) (options : ValidationOptions) :
    (checkKeys options keys fields).1 = fields := by
  refine (ordered_checkKeys options keys fields).ext h.ordered ?_
  intro key
  rw [get?_checkKeys options hnodup]
  cases hrule : keys.get? key with
  | some rule => rw [Option.bind_some, h.passes (key, rule) (Keys.mem_of_get? hrule)]
  | none =>
      rw [Option.bind_none, eq_comm]
      refine Fields.get?_eq_none fun member hmember heq => ?_
      have hhas := h.known member hmember
      rw [← Keys.isSome_get?, heq, hrule] at hhas
      exact nomatch hhas

/-! ### One value or several -/

/-- Of two alternatives the first that passes gives the outcome. -/
theorem checkAlternatives_pair {first second : Rule} {value : Json}
    (h : (checkAlternatives options [first, second] name siblings value none).failures = []) :
    ((first.check options name siblings (some value)).failures = [] ∧
        checkAlternatives options [first, second] name siblings value none =
          first.check options name siblings (some value)) ∨
      ((second.check options name siblings (some value)).failures = [] ∧
        checkAlternatives options [first, second] name siblings value none =
          second.check options name siblings (some value)) := by
  have hpasses := Checked.eq_of_passes h
  obtain ⟨before, rule, after, hrules, -, hrule⟩ :=
    (checkAlternatives_eq_iff (by simp)).mp hpasses
  have hmem : rule ∈ [first, second] := by simp [hrules]
  rcases List.mem_pair.mp hmem with rfl | rfl
  · exact .inl ⟨congrArg Checked.failures hrule, hpasses.trans hrule.symm⟩
  · exact .inr ⟨congrArg Checked.failures hrule, hpasses.trans hrule.symm⟩

theorem check_severalOf {kind : Leaf} {choices : List Json} {a : Attributes} {value : Json}
    (hvalid : a.valid = none) (hallows : a.allows value = false) (hne : value ≠ .null) :
    (severalOf kind choices a).check options name siblings (some value) =
      checkAlternatives options
        [.leaf kind { valid := some choices }, .array (.leaf kind { valid := some choices }) {}]
        (a.label.getD name) siblings value none := by
  rw [severalOf, check, Attributes.apply_some hallows hne]
  unfold Attributes.finish
  split
  · rfl
  · rw [hvalid]
    split <;> rfl

theorem settled_of_check_choice {kind : Leaf} (hkind : kind ≠ .any) {choices : List Json}
    {value : Json}
    (h : ((Rule.leaf kind { valid := some choices }).check options name siblings
      (some value)).failures = []) :
    ∃ converted, (Rule.leaf kind { valid := some choices }).check options name siblings
        (some value) = .pass converted ∧
      kind.Settled converted ∧ choices.any (·.looseEq converted) = true := by
  obtain ⟨converted, hcheck, hmem | ⟨hsettled, hadmits⟩⟩ :=
    settled_of_check_leaf hkind blanks_nil rfl h
  · exact nomatch hmem
  · exact ⟨converted, hcheck, hsettled, hadmits choices rfl⟩

theorem check_choice_arr_failures {kind : Leaf} (hkind : kind ≠ .any) {choices items : List Json} :
    ((Rule.leaf kind { valid := some choices }).check options name siblings
      (some (.arr items))).failures ≠ [] := by
  have hne : Json.arr items ≠ .null := nofun
  intro h
  rw [check, Attributes.apply_some rfl hne] at h
  rw [(Attributes.finish_of_passes h).1] at h
  cases Leaf.isScalar_of_check hkind h

theorem settled_of_check_severalOf {kind : Leaf} (hkind : kind ≠ .any) {choices : List Json}
    {a : Attributes} (hvalid : a.valid = none) {value : Json} (hallows : a.allows value = false)
    (hne : value ≠ .null)
    (h : ((severalOf kind choices a).check options name siblings (some value)).failures = []) :
    ∃ converted,
      (severalOf kind choices a).check options name siblings (some value) = .pass converted ∧
        (severalOf kind choices a).Settled converted := by
  rw [check_severalOf hvalid hallows hne] at h ⊢
  rcases checkAlternatives_pair h with ⟨hpass, heq⟩ | ⟨hpass, heq⟩
  · rw [heq]
    obtain ⟨converted, hcheck, hsettled, hamong⟩ := settled_of_check_choice hkind hpass
    exact ⟨converted, hcheck, .single hsettled hamong⟩
  · rw [heq]
    -- Of an array every item is one of the choices.
    have hpasses := Checked.eq_of_passes hpass
    rw [hpasses]
    obtain ⟨converted, hconverted, ⟨hitems⟩, -⟩ :=
      (Attributes.frames_some_iff rfl).mp (check_array_eq_iff.mp hpasses)
    refine ⟨_, by rw [hconverted]; rfl, .many (forall_mem_of_forall₂ (hitems.imp ?_))⟩
    intro origin item hcheck
    obtain ⟨item', hitem', hsettled⟩ :=
      settled_of_check_choice hkind (congrArg Checked.failures hcheck)
    cases hcheck.symm.trans hitem'
    exact hsettled

theorem admits_choices {choices : List Json} {item : Json}
    (hamong : choices.any (·.looseEq item) = true) :
    ({ valid := some choices } : Attributes).Admits item := by
  intro _ heq
  exact Option.some.inj heq ▸ hamong

theorem check_severalOf_single {kind : Leaf} {choices : List Json} {a : Attributes}
    (hvalid : a.valid = none) {given value : Json} (hallows : a.allows given = false)
    (hne : given ≠ .null)
    (h : ∀ label, (Rule.leaf kind { valid := some choices }).check options label siblings
      (some given) = .pass value) :
    (severalOf kind choices a).check options name siblings (some given) = .pass value := by
  rw [check_severalOf hvalid hallows hne]
  exact (checkAlternatives_eq_iff (by simp)).mpr ⟨[], _, _, rfl, nofun, h _⟩

/-- An array of values, each given as something that is converted to it. -/
theorem check_severalOf_map {kind : Leaf} (hkind : kind ≠ .any) {choices : List Json}
    {a : Attributes} (hvalid : a.valid = none) (hblanks : Blanks a.allow) {items : List Json}
    (given : Json → Json)
    (h : ∀ label, ∀ item ∈ items, (Rule.leaf kind { valid := some choices }).check options label
      none (some (given item)) = .pass item) :
    (severalOf kind choices a).check options name siblings (some (.arr (items.map given))) =
      .pass (.arr items) := by
  have hallows : a.allows (.arr (items.map given)) = false := by
    rw [← Bool.not_eq_true, Attributes.allows_iff hblanks]
    exact fun hmem => nomatch hblanks _ hmem
  have hcheck : (Rule.array (.leaf kind { valid := some choices }) {}).check options
      (a.label.getD name) siblings (some (.arr (items.map given))) = .pass (.arr items) := by
    refine check_array_eq_iff.mpr (.converted rfl (.items ?_) (.inr nofun))
    exact List.forall₂_map_left_iff.mpr (List.forall₂_same.mpr (h _))
  rw [check_severalOf hvalid hallows nofun]
  exact (checkAlternatives_eq_iff (by simp)).mpr
    ⟨[_], _, [], rfl, by simpa using check_choice_arr_failures hkind, hcheck⟩

theorem check_severalOf_of_settled {kind : Leaf} (hkind : kind ≠ .any) {choices : List Json}
    {a : Attributes} (hvalid : a.valid = none) (hblanks : Blanks a.allow) {value : Json}
    (h : (severalOf kind choices a).Settled value) :
    (severalOf kind choices a).check options name siblings (some value) = .pass value := by
  have hallows := h.not_allows hblanks
  have hne := h.ne_null
  unfold severalOf at h
  cases h with
  | single h hamong =>
      refine check_severalOf_single hvalid hallows hne fun label => ?_
      exact check_leaf_of_settled options label siblings h (admits_choices hamong) blanks_nil
  | @many _ _ _ items h =>
      have hmap := @check_severalOf_map options name siblings kind hkind choices a hvalid hblanks
        items id ?_
      · rwa [List.map_id] at hmap
      · intro label item hitem
        exact check_leaf_of_settled options label none (h item hitem).1
          (admits_choices (h item hitem).2) blanks_nil

end

/-! ## Fields -/

theorem check_object_of_not_obj {keys : Keys} {unknown : Bool} {a : Attributes} {value : Json}
    {name : String} {siblings : Option Fields} (hallows : a.allows value = false)
    (hne : value ≠ .null) (hobj : ∀ fields, value ≠ .obj fields) :
    ((Rule.object keys unknown a).check {} name siblings (some value)).failures ≠ [] := by
  intro h
  rw [check, Attributes.apply_some hallows hne] at h
  rw [(Attributes.finish_of_passes h).1] at h
  cases value <;> simp_all [Checked.fail]

theorem Settled.check_eq {rule : Rule} (hfield : rule.IsField)
    (hblanks : Blanks rule.attributes.allow) {value : Json} (h : rule.Settled value)
    (options : ValidationOptions) (name : String) (siblings : Option Fields) :
    rule.check options name siblings (some value) = .pass value := by
  have hallows := h.not_allows hblanks
  cases hfield with
  | one hkind =>
      cases h with
      | one h hadmits => exact check_leaf_of_settled options name siblings h hadmits hblanks
  | several hkind hvalid => exact check_severalOf_of_settled hkind hvalid hblanks h
  | @members keys a hnodup hparts hvalid =>
      cases h with
      | @members _ _ fields h =>
          have hallows : a.allows (.obj fields) = false := hallows
          rw [check_object_of_accepts hallows hvalid (h.accepts options),
            h.checkKeys_eq hnodup options]

/-- What the rule of a field accepts, it converts to a blank that is welcome, or to a value that it
leaves alone from then on. -/
theorem settled_or_mem_of_check {rule : Rule} (hfield : rule.IsField)
    (hblanks : Blanks rule.attributes.allow) {name : String} {siblings : Option Fields}
    {value : Json} (h : (rule.check {} name siblings (some value)).failures = []) :
    ∃ converted, rule.check {} name siblings (some value) = .pass converted ∧
      (converted ∈ rule.attributes.allow ∨ rule.Settled converted) := by
  by_cases hallows : rule.attributes.allows value = true
  · exact ⟨value, hfield.check_allowed {} name siblings hallows,
      Or.inl ((Attributes.allows_iff hblanks).mp hallows)⟩
  · have hallows : rule.attributes.allows value = false := by simpa using hallows
    -- Null passes only where it is welcome.
    have hne : value ≠ .null := by
      rintro rfl
      exact hfield.check_null {} name siblings hallows h
    cases hfield with
    | one hkind =>
        obtain ⟨converted, hcheck, hmem | ⟨hsettled, hadmits⟩⟩ :=
          settled_of_check_leaf hkind hblanks hallows h
        · exact ⟨converted, hcheck, Or.inl hmem⟩
        · exact ⟨converted, hcheck, Or.inr (.one hsettled hadmits)⟩
    | several hkind hvalid =>
        obtain ⟨converted, hcheck, hsettled⟩ :=
          settled_of_check_severalOf hkind hvalid hallows hne h
        exact ⟨converted, hcheck, Or.inr hsettled⟩
    | @members keys a hnodup hparts hvalid =>
        have hallows : a.allows value = false := hallows
        by_cases hobj : ∃ fields, value = .obj fields
        · obtain ⟨fields, rfl⟩ := hobj
          have haccepts := accepts_of_check_object hallows hvalid rfl h
          exact ⟨_, check_object_of_accepts hallows hvalid haccepts false name siblings,
            Or.inr (.members (settledMembers_of_accepts hnodup hparts haccepts))⟩
        · exact absurd h (check_object_of_not_obj hallows hne fun fields heq => hobj ⟨fields, heq⟩)

/-- A field that must be answered and does not welcome null has an answer that is not null. -/
theorem IsField.value_of_required {rule : Rule} (hfield : rule.IsField)
    (hrequired : rule.attributes.required = true) (hnull : rule.attributes.allows .null = false)
    {name : String} {siblings : Option Fields} {value : Option Json}
    (h : (rule.check {} name siblings value).failures = []) :
    ∃ converted, (rule.check {} name siblings value).value = some converted ∧
      converted ≠ .null := by
  cases value with
  | none =>
      rw [hfield.check_none, if_pos hrequired] at h
      exact nomatch h
  | some value =>
      refine ne_null_of_check ?_ h
      rintro rfl
      exact hfield.check_null {} name siblings hnull h

/-! ## Blank fields -/

theorem check_leaf_empty {kind : Leaf} (hkind : kind ≠ .any) {a : Attributes}
    (hallows : a.allows (.str "") = false) (options : ValidationOptions) (name : String)
    (siblings : Option Fields) :
    ((Rule.leaf kind a).check options name siblings (some (.str ""))).failures ≠ [] := by
  intro hpasses
  rw [check, Attributes.apply_some hallows (by simp)] at hpasses
  rw [(Attributes.finish_of_passes hpasses).1, hallows] at hpasses
  exact Leaf.check_empty hkind _ hpasses

/-- A field that is left blank fails unless the blank is welcome. -/
theorem IsField.check_empty {rule : Rule} (h : rule.IsField)
    (hallows : rule.attributes.allows (.str "") = false) (name : String)
    (siblings : Option Fields) :
    (rule.check {} name siblings (some (.str ""))).failures ≠ [] := by
  have hne : Json.str "" ≠ .null := by simp
  cases h with
  | @one kind a hkind => exact check_leaf_empty hkind hallows {} name siblings
  | @several kind choices a hkind hvalid =>
      intro hpasses
      rw [check_severalOf hvalid hallows hne] at hpasses
      -- The empty text is neither one of the choices nor an array of them.
      rcases checkAlternatives_pair hpasses with ⟨hpasses, -⟩ | ⟨hpasses, -⟩
      · exact check_leaf_empty hkind rfl {} _ siblings hpasses
      · rw [check, Attributes.apply_some rfl hne] at hpasses
        cases hpasses
  | members hnodup hparts hvalid => exact check_object_of_not_obj hallows hne (by simp)

section

variable {rule : Rule} (h : rule.IsField) (name : String) (siblings : Option Fields)

include h

theorem IsField.check_none_iff :
    (rule.check {} name siblings none).failures ≠ [] ↔ rule.attributes.required = true := by
  rw [h.check_none]
  split
  · next hrequired => simp [Checked.fail, hrequired]
  · next hrequired => simp [hrequired]

theorem IsField.check_empty_iff :
    (rule.check {} name siblings (some (.str ""))).failures ≠ [] ↔
      rule.attributes.allows (.str "") = false := by
  refine ⟨fun hfails => ?_, fun hallows => h.check_empty hallows name siblings⟩
  by_contra hallows
  rw [h.check_allowed {} name siblings (by simpa using hallows)] at hfails
  exact hfails rfl

end

/-! ## Asking -/

/-- The rule, asked with or without the value having to be there, and with some blanks welcome. -/
def asked (required : Bool) (allow : List Json) (rule : Rule) : Rule :=
  rule.mapAttributes fun a => { a with required, allow }

section

variable (required : Bool) (allow : List Json) (rule : Rule)

@[simp] theorem attributes_asked :
    (rule.asked required allow).attributes = { rule.attributes with required, allow } :=
  attributes_mapAttributes _ _

@[simp] theorem required_asked :
    (rule.asked required allow).required = rule.asked true allow := by
  cases rule <;> rfl

@[simp] theorem optional_asked :
    (rule.asked required allow).optional = rule.asked false allow := by
  cases rule <;> rfl

/-- Welcoming a blank that may be welcome already. -/
theorem allowing_asked {blank : Json} (hallow : allow = [] ∨ allow = [blank]) :
    (rule.asked required allow).allowing blank = rule.asked required [blank] := by
  rcases hallow with rfl | rfl
  · cases rule <;> rfl
  · cases rule <;> simp [asked, allowing, mapAttributes]

@[simp] theorem isField_asked : (rule.asked required allow).IsField ↔ rule.IsField := by
  constructor
  · intro h
    cases rule with
    | leaf kind a => cases h with | one hkind => exact .one hkind
    | object keys unknown a => cases h with | members h h' h'' => exact .members h h' h''
    | alternatives rules a => cases h with | several h h' => exact .several h h'
    | array item a => cases h
    | choose sibling is revealed hidden a => cases h
  · intro h
    cases h with
    | one hkind => exact .one hkind
    | several hkind hvalid => exact .several hkind hvalid
    | members hnodup hparts hvalid => exact .members hnodup hparts hvalid

@[simp] theorem settled_asked {value : Json} :
    (rule.asked required allow).Settled value ↔ rule.Settled value := by
  constructor
  · intro h
    cases rule with
    | leaf kind a => cases h with | one h h' => exact .one h h'
    | object keys unknown a => cases h with | members h => exact .members h
    | alternatives rules a =>
        cases h with
        | single h h' => exact .single h h'
        | many h => exact .many h
    | array item a => cases h
    | choose sibling is revealed hidden a => cases h
  · intro h
    cases h with
    | one h h' => exact .one h h'
    | single h h' => exact .single h h'
    | many h => exact .many h
    | members h => exact .members h

end

end Rule

end Questionnaire
