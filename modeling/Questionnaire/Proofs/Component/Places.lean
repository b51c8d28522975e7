import Questionnaire.Proofs.Component.Objects
import Questionnaire.Proofs.Rule.Failures

/-!
# Where the failures of a field are

What the rule of a field finds wrong it finds at the answer itself, at an item of a choice of
several, or at a member of an address (`Rule.IsField.path_cases`). Inputs are no addresses, so what
is wrong with one is wrong with the whole input or with an item (`path_of_mem_own_form`).
-/

namespace Questionnaire

namespace Rule

/-- Whether a rule asks for a value without looking inside it. -/
def isLeaf : Rule → Bool
  | .leaf _ _ => true
  | _ => false

theorem isLeaf_mapAttributes (f : Attributes → Attributes) (rule : Rule) :
    (rule.mapAttributes f).isLeaf = rule.isLeaf := by
  cases rule <;> rfl

end Rule

/-! ## Failures of a rule -/

section

variable {failure : Failure} {options : ValidationOptions} {name label : String}
  {siblings : Option Fields}

/-- The frame of a check finds a value itself wrong, or leaves it to the check. -/
theorem Attributes.path_of_mem_apply {a : Attributes} {onNull : Option Fault}
    {value : Option Json} {convert : Json → Checked}
    (h : failure ∈ (a.apply label onNull value convert).failures) :
    failure.path = [] ∨ ∃ given, value = some given ∧ failure ∈ (convert given).failures :=
  (mem_apply h).imp And.left fun ⟨given, hvalue, _, h⟩ => ⟨given, hvalue, h⟩

namespace Rule

theorem path_of_mem_check_leaf {kind : Leaf} {a : Attributes} {value : Option Json}
    (h : failure ∈ ((leaf kind a).check options name siblings value).failures) :
    failure.path = [] := by
  rw [check] at h
  rcases Attributes.path_of_mem_apply h with h | ⟨given, -, h⟩
  · exact h
  · exact (Leaf.mem_check h).1

theorem path_of_mem_check_severalOf {kind : Leaf} {choices : List Json} {a : Attributes}
    {value : Option Json}
    (h : failure ∈ ((severalOf kind choices a).check options name siblings value).failures) :
    failure.path = [] ∨ ∃ i : Nat, failure.path = [toString i] := by
  rw [severalOf, check] at h
  rcases Attributes.path_of_mem_apply h with h | ⟨given, -, h⟩
  · exact Or.inl h
  · rcases mem_checkAlternatives h with rfl | ⟨failures, hnone, -⟩ | ⟨rule, hrule, h⟩
    · exact Or.inl rfl
    · cases hnone
    · rcases List.mem_pair.mp hrule with rfl | rfl
      · exact Or.inl (path_of_mem_check_leaf h)
      · rw [check] at h
        rcases Attributes.path_of_mem_apply h with h | ⟨items, -, h⟩
        · exact Or.inl h
        · split at h
          · obtain ⟨checked, hchecked, h⟩ := List.mem_flatMap.mp h
            obtain ⟨⟨item, i⟩, -, rfl⟩ := List.mem_map.mp hchecked
            obtain ⟨inner, hinner, rfl⟩ := List.mem_map.mp h
            exact Or.inr ⟨i, congrArg _ (path_of_mem_check_leaf hinner)⟩
          · exact Or.inl (List.mem_singleton.mp h ▸ rfl)

theorem path_of_mem_check_members {keys : Keys} {a : Attributes} {value : Option Json}
    (hparts : ∀ entry ∈ keys, IsPart entry.2)
    (h : failure ∈ ((object keys false a).check options name siblings value).failures) :
    failure.path = [] ∨
      ∃ key, failure.path = [key] ∧ (key ∈ keys.names ∨ failure.fault = .unknownKey) := by
  rw [check] at h
  rcases Attributes.path_of_mem_apply h with h | ⟨given, -, h⟩
  · exact Or.inl h
  · split at h
    · rcases List.mem_append.mp h with h | h
      · obtain ⟨key, rule, hentry, inner, hinner, rfl⟩ := exists_of_mem_checkKeys h
        have hpath : inner.path = [] := by
          cases rule with
          | leaf kind a => exact path_of_mem_check_leaf hinner
          | _ => exact (hparts _ hentry).elim
        refine Or.inr ⟨key, congrArg _ hpath, Or.inl ?_⟩
        exact List.mem_map_of_mem hentry
      · obtain ⟨key, rfl⟩ := eq_of_mem_checkUnknown h
        exact Or.inr ⟨key, rfl, Or.inr rfl⟩
    · exact Or.inl (List.mem_singleton.mp h ▸ rfl)

/-- What the rule of a field finds wrong is the value itself, an item of a choice of several, or a
member of an object. -/
theorem IsField.path_cases {rule : Rule} (hrule : rule.IsField) {value : Option Json}
    (h : failure ∈ (rule.check options name siblings value).failures) :
    failure.path = [] ∨
      (rule.isLeaf = false ∧ rule.objectKeys? = none ∧ ∃ i : Nat, failure.path = [toString i]) ∨
      ∃ keys ∈ rule.objectKeys?, ∃ key, failure.path = [key] ∧
        (key ∈ keys.names ∨ failure.fault = .unknownKey) := by
  cases hrule with
  | one hkind => exact Or.inl (path_of_mem_check_leaf h)
  | several hkind hvalid =>
      exact (path_of_mem_check_severalOf h).imp_right fun hitem => Or.inl ⟨rfl, rfl, hitem⟩
  | members hnodup hparts hvalid =>
      exact (path_of_mem_check_members hparts h).imp_right fun hmember => Or.inr ⟨_, rfl, hmember⟩

end Rule

end

/-! ## Rules of fields -/

/-- Whether a field takes several items of its list. -/
def Component.choosesSeveral : Component → Bool
  | .choice .checkboxes _ _ _ => true
  | _ => false

theorem isLeaf_presence (d : ComponentDefinition) (blank : Json) (rule : Rule) :
    (presence d blank rule).isLeaf = rule.isLeaf := by
  unfold presence
  split <;> exact Rule.isLeaf_mapAttributes ..

theorem isLeaf_presence_described (d : ComponentDefinition) (blank : Json) {base : Rule}
    (hbase : base.IsBase) : (presence d blank (described d base)).isLeaf = true := by
  obtain ⟨kind, rfl, -⟩ := hbase
  obtain ⟨kind', a, hdescribed, -⟩ := described_leaf d kind {}
  rw [isLeaf_presence, hdescribed]
  rfl

section

variable {c : Component} (hfield : c.IsBuiltinField = true)

include hfield

/-- An input is looked inside for a choice of several only. -/
theorem isLeaf_own_form {entry : String × Rule} (hentry : entry ∈ Side.form.own c) :
    entry.2.isLeaf = true ∨ c.choosesSeveral = true := by
  cases c with
  | single kind d =>
      left
      cases kind with
      | text variant =>
          obtain rfl := List.mem_singleton.mp hentry
          exact isLeaf_presence_described d (.str "") variant.isBase_base
      | date withTime =>
          obtain rfl := List.mem_singleton.mp hentry
          exact isLeaf_presence_described d (.str "") (isBase_dateBase withTime)
      | dateParts withTime =>
          obtain ⟨part, -, rfl⟩ := List.mem_map.mp (Keys.mem_ofList hentry)
          exact isLeaf_presence d (.str "") _
      | address =>
          obtain ⟨part, -, rfl⟩ := List.mem_map.mp (Keys.mem_ofList hentry)
          show (part.rule d).isLeaf = true
          rw [part.rule_eq d]
          rfl
      | content _ => cases hfield
      | plain => cases hfield
  | choice variant d list reveals =>
      obtain rfl := List.mem_singleton.mp hentry
      have hleaf := isLeaf_presence_described d (.str "") list.type.isBase_base
      cases variant with
      | checkboxes => exact Or.inr rfl
      | select => exact Or.inl hleaf
      | yesNo => exact Or.inl ((Rule.isLeaf_mapAttributes ..).trans hleaf)
      | radios => exact Or.inl ((Rule.isLeaf_mapAttributes ..).trans hleaf)

/-- A stored answer is looked inside for a choice of several, or else for an address. -/
theorem isLeaf_ownState : c.ownState.isLeaf = true ∨ c.choosesSeveral = true ∨
    c.ownState.objectKeys?.isSome = true := by
  cases c with
  | single kind d =>
      cases kind with
      | text variant => exact Or.inl (isLeaf_presence_described d .null variant.isBase_base)
      | date withTime => exact Or.inl (isLeaf_presence_described d .null (isBase_dateBase withTime))
      | dateParts withTime =>
          exact Or.inl (isLeaf_presence_described d .null (isBase_dateBase withTime))
      | address =>
          refine Or.inr (Or.inr ?_)
          show (addressRule d).objectKeys?.isSome = true
          rw [addressRule, objectKeys?_presence]
          rfl
      | content _ => cases hfield
      | plain => cases hfield
  | choice variant d list reveals =>
      have hleaf := isLeaf_presence_described d .null list.type.isBase_base
      cases variant with
      | checkboxes => exact Or.inr (Or.inl rfl)
      | _ => exact Or.inl ((Rule.isLeaf_mapAttributes ..).trans hleaf)

end

/-! ## Places behind reveals -/

theorem Side.Asks.isLeaf_eq {side : Side} {rule asked : Rule} (h : side.Asks rule asked) :
    asked.isLeaf = rule.isLeaf := by
  cases h with
  | alone => rfl
  | shown => exact Rule.isLeaf_mapAttributes ..
  | hidden => exact (Rule.isLeaf_mapAttributes ..).trans (Rule.isLeaf_mapAttributes ..)

section

variable {c : Component} (hfield : c.IsBuiltinField = true) {behind : List Reveal}
  {options : ValidationOptions} {name : String} {fields : Fields} {value : Option Json}
  {failure : Failure}

include hfield

/-- An input is wrong itself, or an item of it is if the field takes several. -/
theorem path_of_mem_own_form {key : String} {rule : Rule} (hrule : (key, rule) ∈ Side.form.own c)
    (h : failure ∈
      ((Side.form.behind behind rule).check options name (some fields) value).failures) :
    failure.path = [] ∨ (c.choosesSeveral = true ∧ ∃ i : Nat, failure.path = [toString i]) := by
  obtain ⟨asked, hasks, hcheck⟩ := Side.form.exists_asks behind rule fields
  rw [hcheck] at h
  have hobject : asked.objectKeys? = none :=
    hasks.objectKeys?_eq.trans (objectKeys?_own_form hfield hrule)
  rcases (hasks.isField (isField_own_form hfield hrule)).path_cases h with
    hpath | ⟨hleaf, -, hitem⟩ | ⟨keys, hkeys, -⟩
  · exact Or.inl hpath
  · rw [hasks.isLeaf_eq] at hleaf
    refine Or.inr ⟨(isLeaf_own_form hfield hrule).resolve_left ?_, hitem⟩
    exact Bool.eq_false_iff.mp hleaf
  · rw [hobject] at hkeys
    cases hkeys

/-- A stored answer is wrong itself, or an item of it is if the field takes several, or a member if
it is an address. -/
theorem path_of_mem_ownState
    (h : failure ∈
      ((Side.state.behind behind c.ownState).check options name (some fields) value).failures) :
    failure.path = [] ∨ (c.choosesSeveral = true ∧ ∃ i : Nat, failure.path = [toString i]) ∨
      ∃ d, c = .single .address d ∧ ∃ key, failure.path = [key] ∧
        (key ∈ addressParts.map AddressPart.key ∨ failure.fault = .unknownKey) := by
  obtain ⟨asked, hasks, hcheck⟩ := Side.state.exists_asks behind c.ownState fields
  rw [hcheck] at h
  rcases (hasks.isField (isField_ownState hfield)).path_cases h with
    hpath | ⟨hleaf, hobject, hitem⟩ | ⟨keys, hkeys, key, hpath, hkey⟩
  · exact Or.inl hpath
  · rw [hasks.isLeaf_eq] at hleaf
    rw [hasks.objectKeys?_eq] at hobject
    refine Or.inr (Or.inl ⟨?_, hitem⟩)
    refine ((isLeaf_ownState hfield).resolve_left (Bool.eq_false_iff.mp hleaf)).resolve_right ?_
    rw [hobject]
    exact Bool.false_ne_true
  · rw [hasks.objectKeys?_eq] at hkeys
    obtain ⟨d, hd, rfl⟩ := exists_address_of_objectKeys? hfield hkeys
    refine Or.inr (Or.inr ⟨d, hd, key, hpath, hkey.imp_left fun hmem => ?_⟩)
    rw [addressKeys_eq, Keys.names, List.map_map] at hmem
    exact hmem

end

/-! ## Rules of groups -/

/-- What is wrong with an object of a group of components, the rule of some question finds at a key of
its own. -/
theorem Side.exists_question_of_mem_checkKeys (side : Side) {components : List Component}
    {options : ValidationOptions} {fields : Fields} {failure : Failure}
    (h : failure ∈ (Rule.checkKeys options (side.groupKeys components) fields).2) :
    ∃ q ∈ questions components, ∃ key own, (key, own) ∈ side.own q.field ∧
      ∃ inner ∈ ((side.behind q.behind own).check options key (some fields)
        (fields.get? key)).failures, failure = inner.under key := by
  obtain ⟨key, rule, hentry, inner, hinner, rfl⟩ := Rule.exists_of_mem_checkKeys h
  have hget := Keys.get?_of_mem (side.nodup_groupKeys components) hentry
  obtain ⟨q, hq, own, hown, rfl⟩ := side.exists_own_of_get? hget
  exact ⟨q, hq, key, own, hown, inner, hinner, rfl⟩

/-- What is wrong with the stored answers of a group, the rule of some question finds with the
answer. -/
theorem exists_question_of_mem_state {components : List Component} {options : ValidationOptions}
    {state : State} {failure : Failure}
    (h : failure ∈ (Rule.checkKeys options (Side.state.groupKeys components) state).2) :
    ∃ q ∈ questions components,
      ∃ inner ∈ ((Side.state.behind q.behind q.field.ownState).check options q.name (some state)
        (state.get? q.name)).failures, failure = inner.under q.name := by
  obtain ⟨q, hq, key, own, hown, inner, hinner, rfl⟩ :=
    Side.state.exists_question_of_mem_checkKeys h
  rw [Component.own_state (isForm_of_mem_questions components hq)] at hown
  obtain ⟨rfl, rfl⟩ := Prod.mk.inj (List.mem_singleton.mp hown)
  exact ⟨q, hq, inner, hinner, rfl⟩

end Questionnaire
