import Questionnaire.Proofs.Component.OwnRule

/-!
# How a question is asked

The rule of a field whose definition welcomes no values of its own is one rule (`Component.core`,
`Component.formCore`) asked in one of three ways: with no reveal in front of it, as the definition
has it; while its item is selected, so that an answer must be there; and while its item is not, so
that it may be missing or blank (`check_behind_asked`).
-/

namespace Questionnaire

/-! ## Ways of asking -/

/-- Whether an answer must be there, in front of some answers. -/
def mustBePresent (behind : List Reveal) (isOptional : Bool) (fields : Fields) : Bool :=
  match behind with
  | [] => !isOptional
  | reveal :: _ => reveal.isSelected fields

/-- Whether the blank is welcome, in front of some answers. -/
def welcomesBlank (behind : List Reveal) (isOptional : Bool) (fields : Fields) : Bool :=
  match behind with
  | [] => isOptional
  | reveal :: _ => isOptional || !reveal.isSelected fields

theorem welcome_cases (blank : Json) (isWelcome : Bool) :
    welcome blank isWelcome = [] ∨ welcome blank isWelcome = [blank] := by
  cases isWelcome
  · exact Or.inl rfl
  · exact Or.inr rfl

/-- A rule behind reveals is asked as the answers have it. -/
theorem check_behind_asked (side : Side) (behind : List Reveal) (isOptional : Bool) (core : Rule)
    (options : ValidationOptions) (name : String) (fields : Fields) (value : Option Json) :
    (side.behind behind (core.asked (!isOptional) (welcome side.blank isOptional))).check options
        name (some fields) value =
      (core.asked (mustBePresent behind isOptional fields)
        (welcome side.blank (welcomesBlank behind isOptional fields))).check options name
          (some fields) value := by
  cases behind with
  | nil => rfl
  | cons reveal outer =>
      rw [check_behind, Rule.required_asked, Rule.optional_asked,
        Rule.allowing_asked false _ core (welcome_cases side.blank isOptional)]
      simp only [mustBePresent, welcomesBlank]
      generalize reveal.isSelected fields = selected
      cases selected with
      | true => simp
      | false => simp [welcome]

/-! ## The rules of fields, as they are asked -/

namespace Component

/-- The rule of a field's stored answer, before it is asked. -/
def core : Component → Rule
  | .single (.text variant) d => described d variant.base
  | .single (.date withTime) d | .single (.dateParts withTime) d => described d (dateBase withTime)
  | .single .address d => (Rule.ofKeys (addressKeys d)).labelled d.titleText
  | .single (.content _) _ | .single .plain _ => Rule.any
  | .choice .checkboxes d list _ => described d (oneOrMore list)
  | .choice _ d list _ => (described d list.type.base).among list.values

end Component

theorem attributes_described_leaf {d : ComponentDefinition} (h : d.constraints.allow = none)
    (kind : Leaf) : (described d (.leaf kind {})).attributes.required = false ∧
      (described d (.leaf kind {})).attributes.allow = [] := by
  obtain ⟨kind', a', hdescribed, -, hkeeps⟩ := described_leaf d kind {}
  refine ⟨?_, allow_described h _⟩
  rw [hdescribed]
  exact hkeeps.required_eq

theorem attributes_described_oneOrMore {d : ComponentDefinition} (h : d.constraints.allow = none)
    (list : ListDefinition) : (described d (oneOrMore list)).attributes.required = false ∧
      (described d (oneOrMore list)).attributes.allow = [] := by
  obtain ⟨a', hdescribed, hkeeps⟩ := described_alternatives d
    [list.type.base.among list.values, .arrayOf (list.type.base.among list.values)] {}
  refine ⟨?_, allow_described h _⟩
  rw [oneOrMore, Rule.oneOf, hdescribed]
  exact hkeeps.required_eq

theorem presence_described_leaf {d : ComponentDefinition} (h : d.constraints.allow = none)
    (blank : Json) {base : Rule} (hbase : base.IsBase) :
    presence d blank (described d base) =
      (described d base).asked (!d.isOptional) (welcome blank d.isOptional) := by
  obtain ⟨kind, rfl, -⟩ := hbase
  obtain ⟨hrequired, hallow⟩ := attributes_described_leaf h kind
  exact presence_eq_asked d blank hrequired hallow

theorem presence_described_oneOrMore {d : ComponentDefinition} (h : d.constraints.allow = none)
    (blank : Json) (list : ListDefinition) :
    presence d blank (described d (oneOrMore list)) =
      (described d (oneOrMore list)).asked (!d.isOptional) (welcome blank d.isOptional) := by
  obtain ⟨hrequired, hallow⟩ := attributes_described_oneOrMore h list
  exact presence_eq_asked d blank hrequired hallow

theorem among_asked (required : Bool) (allow values : List Json) (rule : Rule) :
    (rule.asked required allow).among values = (rule.among values).asked required allow := by
  cases rule <;> rfl

/-- The rule of a stored answer is the core of the field, asked as the definition has it. -/
theorem ownState_eq_asked {c : Component} (hfield : c.IsBuiltinField = true)
    (hallow : c.definition.constraints.allow = none) :
    c.ownState = c.core.asked (!c.definition.isOptional) (welcome .null c.definition.isOptional) := by
  cases c with
  | single kind d =>
      cases kind with
      | text variant => exact presence_described_leaf hallow .null variant.isBase_base
      | date withTime => exact presence_described_leaf hallow .null (isBase_dateBase withTime)
      | dateParts withTime => exact presence_described_leaf hallow .null (isBase_dateBase withTime)
      | address => exact presence_eq_asked d .null rfl rfl
      | content _ => cases hfield
      | plain => cases hfield
  | choice variant d list reveals =>
      have hleaf := presence_described_leaf hallow .null list.type.isBase_base
      have hamong := among_asked (!d.isOptional) (welcome .null d.isOptional) list.values
        (described d list.type.base)
      cases variant with
      | checkboxes => exact presence_described_oneOrMore hallow .null list
      | _ => exact (congrArg (Rule.among list.values) hleaf).trans hamong

theorem isField_core {c : Component} (hfield : c.IsBuiltinField = true)
    (hallow : c.definition.constraints.allow = none) : c.core.IsField := by
  have h := isField_ownState hfield
  rwa [ownState_eq_asked hfield hallow, Rule.isField_asked] at h

namespace Question

/-- The rule of a stored answer, asked as some answers have it. -/
def askedCore (q : Question) (state : State) : Rule :=
  q.field.core.asked (mustBePresent q.behind q.isOptional state)
    (welcome .null (welcomesBlank q.behind q.isOptional state))

theorem isField_askedCore (q : Question) (state : State) (h : q.field.core.IsField) :
    (q.askedCore state).IsField :=
  (Rule.isField_asked ..).mpr h

theorem check_askedCore (q : Question) (options : ValidationOptions) (name : String)
    (state : State) (value : Option Json) :
    (Side.state.behind q.behind (q.field.core.asked (!q.field.definition.isOptional)
        (welcome .null q.field.definition.isOptional))).check options name (some state) value =
      (q.askedCore state).check options name (some state) value :=
  check_behind_asked Side.state q.behind q.isOptional q.field.core options name state value

end Question

/-! ## What an accepted object holds for a question -/

namespace Side

/-- The members that the rules of some components make of accepted members. -/
def converted (side : Side) (components : List Component) (fields : Fields) : Fields :=
  (Rule.checkKeys {} (side.groupKeys components) fields).1

section

variable {side : Side} {components : List Component} {fields : Fields}
  (haccepts : Rule.Accepts {} (side.groupKeys components) fields)

include haccepts

theorem check_of_accepts {q : Question} (hq : q ∈ questions components) {key : String}
    {rule : Rule} (hrule : (key, rule) ∈ side.own q.field)
    (hsole : ∀ other ∈ questions components, key ∈ side.names other → other = q) :
    ((side.behind q.behind rule).check {} key (some fields) (fields.get? key)).failures = [] ∧
      (side.converted components fields).get? key =
        ((side.behind q.behind rule).check {} key (some fields) (fields.get? key)).value := by
  have hkey := side.get?_groupKeys_of_sole hq hrule hsole
  refine ⟨haccepts.passes _ (Keys.mem_of_get? hkey), ?_⟩
  rw [converted, Rule.get?_checkKeys {} (side.nodup_groupKeys components), hkey]
  rfl

/-- An accepted object holds for a key of a question nothing where nothing was, the blank where it
is welcome, or else a value that the field's rule leaves alone. -/
theorem converted_cases (hblank : side.blank = .null ∨ side.blank = .str "") {q : Question}
    (hq : q ∈ questions components) {key : String} {core : Rule} {isOptional : Bool}
    (hrule : (key, core.asked (!isOptional) (welcome side.blank isOptional)) ∈ side.own q.field)
    (hcore : core.IsField)
    (hsole : ∀ other ∈ questions components, key ∈ side.names other → other = q) :
    (fields.get? key = none ∧ (side.converted components fields).get? key = none ∧
        mustBePresent q.behind isOptional fields = false) ∨
      ∃ value member, fields.get? key = some value ∧
        (side.converted components fields).get? key = some member ∧
        ((member = side.blank ∧ welcomesBlank q.behind isOptional fields = true) ∨
          core.Settled member) := by
  obtain ⟨hpass, hmember⟩ := check_of_accepts haccepts hq hrule hsole
  rw [check_behind_asked] at hpass hmember
  rw [hmember]
  have hasked := (Rule.isField_asked (mustBePresent q.behind isOptional fields)
    (welcome side.blank (welcomesBlank q.behind isOptional fields)) _).mpr hcore
  cases hvalue : fields.get? key with
  | none =>
      rw [hvalue, hasked.check_none, Rule.attributes_asked] at hpass
      rw [hasked.check_none, Rule.attributes_asked]
      left
      cases hmust : mustBePresent q.behind isOptional fields with
      | true =>
          rw [hmust] at hpass
          exact nomatch hpass
      | false => exact ⟨rfl, rfl, rfl⟩
  | some value =>
      rw [hvalue] at hpass
      obtain ⟨member, hcheck, hsettled⟩ := Rule.settled_or_mem_of_check hasked
        (by rw [Rule.attributes_asked]; exact blanks_welcome hblank _) hpass
      rw [hcheck]
      refine Or.inr ⟨value, member, rfl, rfl, ?_⟩
      rw [Rule.attributes_asked, Rule.settled_asked] at hsettled
      rcases hsettled with hmem | hsettled
      · exact Or.inl (mem_welcome_iff.mp hmem)
      · exact Or.inr hsettled

end

end Side

end Questionnaire
