import Questionnaire.Proofs.Component.Keys
import Questionnaire.Proofs.Rule.Settled

/-!
# The rules of a field itself

A field has one rule for its stored answer, `Component.ownState`. The constraints and the title of a
definition change neither the form of a rule nor what its leaves are (`described_leaf`,
`described_alternatives`). So what holds of a few kinds of rules holds of the rules of all built-in
fields (`ownState_of_kinds`, `own_form_of_kinds`), which have one of the forms of `IsField`.
-/

namespace Questionnaire

/-- The kind of a leaf without its constraints. -/
def Leaf.sort : Leaf → Leaf
  | .text _ => .text {}
  | .number _ => .number {}
  | kind => kind

theorem Leaf.ne_any_of_sort {kind kind' : Leaf} (h : kind'.sort = kind.sort) (hkind : kind ≠ .any) :
    kind' ≠ .any := by
  rintro rfl
  cases kind <;> simp_all [Leaf.sort]

namespace ComponentDefinition

/-- Whether null is among the values that the definition welcomes as they are. -/
def welcomesNull (d : ComponentDefinition) : Bool :=
  match d.constraints.allow with
  | some (.arr values) => values.any (· == .null)
  | some value => value == .null
  | none => false

end ComponentDefinition

namespace Rule

/-! ## Constraints -/

@[simp] theorem attributes_mapText (f : TextConstraints → TextConstraints) (rule : Rule) :
    (rule.mapText f).attributes = rule.attributes := by
  cases rule with
  | leaf kind a => cases kind <;> rfl
  | _ => rfl

@[simp] theorem attributes_mapNumber (f : NumberConstraints → NumberConstraints) (rule : Rule) :
    (rule.mapNumber f).attributes = rule.attributes := by
  cases rule with
  | leaf kind a => cases kind <;> rfl
  | _ => rfl

@[simp] theorem attributes_atLeast (bound : Binary64) (rule : Rule) :
    (rule.atLeast bound).attributes = rule.attributes := by
  simp [atLeast]

@[simp] theorem attributes_atMost (bound : Binary64) (rule : Rule) :
    (rule.atMost bound).attributes = rule.attributes := by
  simp [atMost]

@[simp] theorem attributes_trimming (enabled : Bool) (rule : Rule) :
    (rule.trimming enabled).attributes = rule.attributes := by
  simp [trimming]

/-! ## Welcome values -/

@[simp] theorem attributes_allowing (value : Json) (rule : Rule) :
    (rule.allowing value).attributes =
      if rule.attributes.allow.any (·.same value) then rule.attributes
      else { rule.attributes with allow := rule.attributes.allow ++ [value] } :=
  attributes_mapAttributes _ _

/-- A value that is added to the welcome ones is welcome. -/
theorem allows_allowing (value : Json) (rule : Rule) :
    (rule.allowing value).attributes.allows value = true := by
  rw [attributes_allowing]
  split
  · next hallows => exact hallows
  · simp [Attributes.allows]

theorem required_allowing (value : Json) (rule : Rule) :
    (rule.allowing value).attributes.required = rule.attributes.required := by
  rw [attributes_allowing]
  split <;> rfl

theorem allows_null_allowing {value : Json} (hvalue : value ≠ .null) {rule : Rule}
    (h : rule.attributes.allows .null = false) :
    (rule.allowing value).attributes.allows .null = false := by
  rw [attributes_allowing]
  split
  · exact h
  · have hsame : value.same .null = false := by
      rw [← Bool.not_eq_true, Json.same_comm, same_null_iff]
      exact hvalue
    simp_all [Attributes.allows]

end Rule

namespace Attributes

/-- Attributes that differ at most in the label and in what is welcome. -/
structure Keeps (a a' : Attributes) : Prop where
  required_eq : a'.required = a.required
  valid_eq : a'.valid = a.valid

theorem Keeps.refl (a : Attributes) : a.Keeps a := ⟨rfl, rfl⟩

theorem Keeps.trans {a a' a'' : Attributes} (h : a.Keeps a') (h' : a'.Keeps a'') : a.Keeps a'' :=
  ⟨h'.required_eq.trans h.required_eq, h'.valid_eq.trans h.valid_eq⟩

end Attributes

theorem allowing_leaf (value : Json) (kind : Leaf) (a : Attributes) :
    ∃ a', (Rule.leaf kind a).allowing value = .leaf kind a' ∧ a.Keeps a' := by
  refine ⟨_, rfl, ?_⟩
  dsimp only
  split
  · exact .refl a
  · exact ⟨rfl, rfl⟩

theorem allowing_alternatives (value : Json) (rules : List Rule) (a : Attributes) :
    ∃ a', (Rule.alternatives rules a).allowing value = .alternatives rules a' ∧ a.Keeps a' := by
  refine ⟨_, rfl, ?_⟩
  dsimp only
  split
  · exact .refl a
  · exact ⟨rfl, rfl⟩

/-- Values are allowed one by one, and none of them changes the form of the rule. -/
theorem foldl_allowing {form : Attributes → Rule}
    (hform : ∀ value a, ∃ a', (form a).allowing value = form a' ∧ a.Keeps a')
    (values : List Json) (a : Attributes) :
    ∃ a', values.foldl (fun rule value => rule.allowing value) (form a) = form a' ∧ a.Keeps a' := by
  induction values generalizing a with
  | nil => exact ⟨a, rfl, .refl a⟩
  | cons value values ih =>
      obtain ⟨a', ha', hkeeps⟩ := hform value a
      obtain ⟨a'', ha'', hkeeps'⟩ := ih a'
      rw [List.foldl_cons, ha']
      exact ⟨a'', ha'', hkeeps.trans hkeeps'⟩

theorem foldl_allowing_leaf (kind : Leaf) (values : List Json) (a : Attributes) :
    ∃ a', values.foldl (fun rule value => rule.allowing value) (Rule.leaf kind a) =
      .leaf kind a' ∧ a.Keeps a' :=
  foldl_allowing (allowing_leaf · kind) values a

theorem foldl_allowing_alternatives (rules : List Rule) (values : List Json) (a : Attributes) :
    ∃ a', values.foldl (fun rule value => rule.allowing value) (Rule.alternatives rules a) =
      .alternatives rules a' ∧ a.Keeps a' :=
  foldl_allowing (allowing_alternatives · rules) values a

theorem allows_null_foldl_allowing : ∀ {values : List Json}, (∀ value ∈ values, value ≠ .null) →
    ∀ {rule : Rule}, rule.attributes.allows .null = false →
    (values.foldl (fun rule value => rule.allowing value) rule).attributes.allows .null =
      false := by
  intro values
  induction values with
  | nil =>
      intro _ rule h
      exact h
  | cons value values ih =>
      intro hvalues rule h
      rw [List.foldl_cons]
      exact ih (fun other hother => hvalues other (List.mem_cons_of_mem _ hother))
        (Rule.allows_null_allowing (hvalues value (List.mem_cons_self ..)) h)

/-! ## Described rules -/

/-- The values that a definition welcomes are added to a rule last. -/
theorem constrained_eq (c : AnswerConstraints) (rule : Rule) :
    constrained c rule =
      match c.allow with
      | some (.arr values) =>
        values.foldl (fun rule value => rule.allowing value)
          (constrained { c with allow := none } rule)
      | some value => (constrained { c with allow := none } rule).allowing value
      | none => constrained { c with allow := none } rule := rfl

theorem bounded_leaf (c : AnswerConstraints) (kind : Leaf) (a : Attributes) :
    ∃ kind', constrained { c with allow := none } (.leaf kind a) = .leaf kind' a ∧
      kind'.sort = kind.sort := by
  unfold constrained
  dsimp only
  cases c.min <;> cases c.max <;> split <;> cases kind <;> exact ⟨_, rfl, rfl⟩

theorem bounded_alternatives (c : AnswerConstraints) (rules : List Rule) (a : Attributes) :
    constrained { c with allow := none } (.alternatives rules a) = .alternatives rules a := by
  unfold constrained
  dsimp only
  cases c.min <;> cases c.max <;> split <;> rfl

theorem attributes_bounded (c : AnswerConstraints) (rule : Rule) :
    (constrained { c with allow := none } rule).attributes = rule.attributes := by
  unfold constrained
  dsimp only
  cases c.min <;> cases c.max <;> split <;> simp

theorem constrained_leaf (c : AnswerConstraints) (kind : Leaf) (a : Attributes) :
    ∃ kind' a', constrained c (.leaf kind a) = .leaf kind' a' ∧ kind'.sort = kind.sort ∧
      a.Keeps a' := by
  obtain ⟨kind', hbounded, hsort⟩ := bounded_leaf c kind a
  rw [constrained_eq, hbounded]
  split
  · obtain ⟨a', ha', hkeeps⟩ := foldl_allowing_leaf kind' _ a
    exact ⟨kind', a', ha', hsort, hkeeps⟩
  · obtain ⟨a', ha', hkeeps⟩ := allowing_leaf _ kind' a
    exact ⟨kind', a', ha', hsort, hkeeps⟩
  · exact ⟨kind', a, rfl, hsort, .refl a⟩

theorem constrained_alternatives (c : AnswerConstraints) (rules : List Rule) (a : Attributes) :
    ∃ a', constrained c (.alternatives rules a) = .alternatives rules a' ∧ a.Keeps a' := by
  rw [constrained_eq, bounded_alternatives]
  split
  · exact foldl_allowing_alternatives rules _ a
  · exact allowing_alternatives _ rules a
  · exact ⟨a, rfl, .refl a⟩

theorem described_leaf (d : ComponentDefinition) (kind : Leaf) (a : Attributes) :
    ∃ kind' a', described d (.leaf kind a) = .leaf kind' a' ∧ kind'.sort = kind.sort ∧
      a.Keeps a' := by
  obtain ⟨kind', a', hconstrained, hsort, hkeeps⟩ := constrained_leaf d.constraints kind a
  unfold described
  dsimp only
  rw [hconstrained]
  split
  · exact ⟨kind', _, rfl, hsort, hkeeps.trans ⟨rfl, rfl⟩⟩
  · exact ⟨kind', a', rfl, hsort, hkeeps⟩

/-- Without constraints a definition adds its title to the rule of a kind of value, and no more. -/
theorem described_unconstrained {d : ComponentDefinition} (h : d.constraints = {}) (kind : Leaf) :
    described d (.leaf kind {}) = .leaf kind { label := d.title } := by
  rw [described, h]
  cases d.title <;> rfl

theorem described_alternatives (d : ComponentDefinition) (rules : List Rule) (a : Attributes) :
    ∃ a', described d (.alternatives rules a) = .alternatives rules a' ∧ a.Keeps a' := by
  obtain ⟨a', hconstrained, hkeeps⟩ := constrained_alternatives d.constraints rules a
  unfold described
  dsimp only
  rw [hconstrained]
  split
  · exact ⟨_, rfl, hkeeps.trans ⟨rfl, rfl⟩⟩
  · exact ⟨a', rfl, hkeeps⟩

theorem attributes_allow_described (d : ComponentDefinition) (base : Rule) :
    (described d base).attributes.allow = (constrained d.constraints base).attributes.allow := by
  unfold described
  dsimp only
  split
  · rw [Rule.labelled, Rule.attributes_mapAttributes]
  · rfl

/-- Without values that are welcome as they are, a definition adds none. -/
theorem allow_described {d : ComponentDefinition} (h : d.constraints.allow = none) (base : Rule) :
    (described d base).attributes.allow = base.attributes.allow := by
  rw [attributes_allow_described, constrained_eq, h]
  dsimp only
  rw [attributes_bounded]

theorem allows_null_described {d : ComponentDefinition} (h : d.welcomesNull = false) {base : Rule}
    (hbase : base.attributes.allows .null = false) :
    (described d base).attributes.allows .null = false := by
  rw [Attributes.allows, attributes_allow_described, ← Attributes.allows, constrained_eq]
  rw [← attributes_bounded d.constraints] at hbase
  unfold ComponentDefinition.welcomesNull at h
  split
  · next values hallow =>
    refine allows_null_foldl_allowing ?_ hbase
    rw [hallow] at h
    intro value hvalue
    have hne := List.any_eq_false.mp h value hvalue
    simpa using hne
  · next value harr hallow =>
    refine Rule.allows_null_allowing ?_ hbase
    rw [hallow] at h
    simpa using h
  · exact hbase

/-! ## How fields ask -/

/-- The blank, where it is welcome. -/
def welcome (blank : Json) (isWelcome : Bool) : List Json :=
  if isWelcome then [blank] else []

theorem mem_welcome_iff {blank value : Json} {isWelcome : Bool} :
    value ∈ welcome blank isWelcome ↔ value = blank ∧ isWelcome = true := by
  cases isWelcome <;> simp [welcome]

theorem blanks_welcome {blank : Json} (h : blank = .null ∨ blank = .str "") (isWelcome : Bool) :
    Blanks (welcome blank isWelcome) := by
  cases isWelcome with
  | false => exact blanks_nil
  | true =>
      intro value hvalue
      obtain rfl := List.mem_singleton.mp hvalue
      exact h

theorem presence_eq_asked (d : ComponentDefinition) (blank : Json) {rule : Rule}
    (hrequired : rule.attributes.required = false) (hallow : rule.attributes.allow = []) :
    presence d blank rule = rule.asked (!d.isOptional) (welcome blank d.isOptional) := by
  unfold presence
  cases rule <;> cases d.isOptional <;>
    simp_all [Rule.attributes, Rule.allowing, Rule.required, Rule.asked, Rule.mapAttributes, welcome]

namespace Component

/-- The rule of the stored answer of a field. -/
def ownState : Component → Rule
  | .single (.text variant) d => Questionnaire.stateRule d variant.base
  | .single (.date withTime) d | .single (.dateParts withTime) d =>
    Questionnaire.stateRule d (dateBase withTime)
  | .single .address d => addressRule d
  | .single (.content _) _ | .single .plain _ => Rule.any.required
  | .choice variant d list _ => variant.stateRule d list

/-- Whether a component is a field of a built-in type. -/
def IsBuiltinField : Component → Bool
  | .single (.content _) _ | .single .plain _ => false
  | _ => true

theorem own_state {c : Component} (h : c.isForm = true) :
    Side.state.own c = [(c.name, c.ownState)] := by
  cases c with
  | single kind d => cases kind <;> first | rfl | cases h
  | choice variant d list reveals => rfl

end Component

theorem names_state {components : List Component} {q : Question}
    (hq : q ∈ questions components) : Side.state.names q = [q.name] := by
  rw [Side.names, Component.own_state (isForm_of_mem_questions components hq)]
  rfl

/-! ## The forms of the rules -/

/-- A plain kind of value, before the constraints of a definition. -/
def Rule.IsBase (base : Rule) : Prop :=
  ∃ kind, base = .leaf kind {} ∧ kind ≠ .any

theorem Rule.IsBase.allow_eq {base : Rule} (h : base.IsBase) : base.attributes.allow = [] := by
  obtain ⟨kind, rfl, -⟩ := h
  rfl

theorem TextVariant.isBase_base (variant : TextVariant) : variant.base.IsBase := by
  cases variant <;> exact ⟨_, rfl, by rintro ⟨⟩⟩

theorem isBase_dateBase (withTime : Bool) : (dateBase withTime).IsBase := by
  cases withTime <;> exact ⟨_, rfl, by rintro ⟨⟩⟩

theorem ListType.isBase_base (type : ListType) : type.base.IsBase := by
  cases type <;> exact ⟨_, rfl, by rintro ⟨⟩⟩

theorem Rule.IsField.mapAttributes {rule : Rule} (h : rule.IsField)
    {f : Attributes → Attributes} (hf : ∀ a, (f a).valid = a.valid) :
    (rule.mapAttributes f).IsField := by
  cases h with
  | one hkind => exact .one hkind
  | several hkind hvalid => exact .several hkind ((hf _).trans hvalid)
  | members hnodup hparts hvalid => exact .members hnodup hparts ((hf _).trans hvalid)

theorem Rule.IsField.required {rule : Rule} (h : rule.IsField) : rule.required.IsField :=
  h.mapAttributes fun _ => rfl

theorem Rule.IsField.optional {rule : Rule} (h : rule.IsField) : rule.optional.IsField :=
  h.mapAttributes fun _ => rfl

theorem Rule.IsField.allowing {rule : Rule} (h : rule.IsField) (value : Json) :
    (rule.allowing value).IsField := by
  refine h.mapAttributes fun a => ?_
  split <;> rfl

theorem Rule.IsField.presence {rule : Rule} (h : rule.IsField) (d : ComponentDefinition)
    (blank : Json) : (presence d blank rule).IsField := by
  unfold Questionnaire.presence
  split
  · exact h.allowing blank
  · exact h.required

theorem isField_described_leaf (d : ComponentDefinition) {kind : Leaf} (hkind : kind ≠ .any)
    (a : Attributes) : (described d (.leaf kind a)).IsField := by
  obtain ⟨kind', a', hdescribed, hsort, -⟩ := described_leaf d kind a
  rw [hdescribed]
  exact .one (Leaf.ne_any_of_sort hsort hkind)

section

variable (d : ComponentDefinition) (blank : Json) {base : Rule}
  (hbase : base.IsBase)

include hbase

theorem isField_presence_leaf : (presence d blank (described d base)).IsField := by
  obtain ⟨kind, rfl, hkind⟩ := hbase
  exact (isField_described_leaf d hkind {}).presence d blank

theorem isField_among_leaf (values : List Json) :
    ((presence d blank (described d base)).among values).IsField := by
  obtain ⟨kind, rfl, hkind⟩ := hbase
  obtain ⟨kind', a', hdescribed, hsort, -⟩ := described_leaf d kind {}
  have hkind' := Leaf.ne_any_of_sort hsort hkind
  rw [hdescribed]
  unfold presence
  split <;> exact .one hkind'

end

theorem isField_described_oneOrMore (d : ComponentDefinition) (list : ListDefinition) :
    (described d (oneOrMore list)).IsField := by
  obtain ⟨kind, hbase, hkind⟩ := list.type.isBase_base
  obtain ⟨a, hdescribed, hkeeps⟩ := described_alternatives d
    [list.type.base.among list.values, .arrayOf (list.type.base.among list.values)] {}
  rw [oneOrMore, Rule.oneOf, hdescribed, hbase]
  exact .several hkind hkeeps.valid_eq

theorem AddressPart.isPart_rule (part : AddressPart) (d : ComponentDefinition) :
    (part.rule d).IsPart := by
  unfold AddressPart.rule
  dsimp only
  split <;> split <;> refine ⟨nofun, ?_⟩ <;> intro value hvalue
  · exact nomatch hvalue
  · exact nomatch hvalue
  · exact Or.inr (List.mem_singleton.mp hvalue)
  · exact Or.inr (List.mem_singleton.mp hvalue)

/-- The rules of the parts of an address. -/
def addressKeys (d : ComponentDefinition) : Keys :=
  Keys.ofList (addressParts.map fun part => (part.key, part.rule d))

theorem isPart_of_mem_addressKeys {d : ComponentDefinition} :
    ∀ entry ∈ addressKeys d, entry.2.IsPart := by
  intro entry hentry
  obtain ⟨part, -, rfl⟩ := List.mem_map.mp (Keys.mem_ofList hentry)
  exact part.isPart_rule d

section

variable {c : Component} (hfield : c.IsBuiltinField = true) {P : Rule → Prop}

include hfield

/-- What holds of the rules of stored answers of every kind holds of that of a field. -/
theorem ownState_of_kinds
    (single : ∀ {base : Rule}, base.IsBase → P (stateRule c.definition base))
    (choice : ∀ {base : Rule}, base.IsBase →
      ∀ values, P ((stateRule c.definition base).among values))
    (choices : ∀ list, P (stateRule c.definition (oneOrMore list)))
    (address : ∀ d, c = .single .address d → P (addressRule d)) : P c.ownState := by
  cases c with
  | single kind d =>
      cases kind with
      | text variant => exact single variant.isBase_base
      | date withTime => exact single (isBase_dateBase withTime)
      | dateParts withTime => exact single (isBase_dateBase withTime)
      | address => exact address d rfl
      | content _ => cases hfield
      | plain => cases hfield
  | choice variant d list reveals =>
      cases variant with
      | checkboxes => exact choices list
      | _ => exact choice list.type.isBase_base list.values

/-- What holds of the rules of inputs of every kind holds of those of a field. -/
theorem own_form_of_kinds
    (single : ∀ {base : Rule}, base.IsBase → P (formRule c.definition base))
    (choice : ∀ {base : Rule}, base.IsBase →
      ∀ values, P ((formRule c.definition base).among values))
    (choices : ∀ list, P (formRule c.definition (oneOrMore list)))
    (datePart : ∀ part : DatePart, P (part.rule c.definition))
    (addressPart : ∀ part : AddressPart, P (part.rule c.definition)) {entry : String × Rule}
    (hentry : entry ∈ Side.form.own c) : P entry.2 := by
  cases c with
  | single kind d =>
      cases kind with
      | text variant =>
          obtain rfl := List.mem_singleton.mp hentry
          exact single variant.isBase_base
      | date withTime =>
          obtain rfl := List.mem_singleton.mp hentry
          exact single (isBase_dateBase withTime)
      | dateParts withTime =>
          obtain ⟨part, -, rfl⟩ := List.mem_map.mp (Keys.mem_ofList hentry)
          exact datePart part
      | address =>
          obtain ⟨part, -, rfl⟩ := List.mem_map.mp (Keys.mem_ofList hentry)
          exact addressPart part
      | content _ => cases hfield
      | plain => cases hfield
  | choice variant d list reveals =>
      obtain rfl := List.mem_singleton.mp hentry
      cases variant with
      | select => exact single list.type.isBase_base
      | checkboxes => exact choices list
      | _ => exact choice list.type.isBase_base list.values

end

/-- The rule of the stored answer of a built-in field has one of the forms of field rules. -/
theorem isField_ownState {c : Component} (h : c.IsBuiltinField = true) : c.ownState.IsField := by
  refine ownState_of_kinds h ?_ ?_ ?_ ?_
  · exact isField_presence_leaf c.definition .null
  · exact isField_among_leaf c.definition .null
  · exact fun list => (isField_described_oneOrMore c.definition list).presence c.definition .null
  · intro d _
    exact (Rule.IsField.members (Keys.nodup_names_ofList _) isPart_of_mem_addressKeys
      rfl).presence d .null

end Questionnaire
