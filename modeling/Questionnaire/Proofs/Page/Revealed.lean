import Questionnaire.Proofs.Component.Compiled
import Questionnaire.Proofs.Page.Storing

/-!
# Revealed fields

While an item of a list is selected, the fields that it reveals must be answered. The rule for the
state asks for them by the state that is made of a submission (`answer_of_isSelected`); what that
state selects is what the validated answers select, so the answers of a submission that proceeds are
complete for the items that they select (`revealed_field_answered`).
-/

namespace Questionnaire

/-! ## Fields that must be answered -/

theorem allow_required (rule : Rule) : rule.required.attributes.allow = rule.attributes.allow := by
  rw [Rule.required, Rule.attributes_mapAttributes]

theorem allow_among (values : List Json) (rule : Rule) :
    (rule.among values).attributes.allow = rule.attributes.allow := by
  rw [Rule.among, Rule.attributes_mapAttributes]

/-- The rule of a stored answer refuses null, when the field is not optional and its definition does
not welcome null. -/
theorem allows_null_ownState {c : Component} (hbuiltin : c.IsBuiltinField = true)
    (hrequired : c.definition.isOptional = false) (hnull : c.definition.welcomesNull = false) :
    c.ownState.attributes.allows .null = false := by
  have hdescribed : ∀ {base : Rule}, base.attributes.allow = [] →
      (stateRule c.definition base).attributes.allows .null = false := by
    intro base hbase
    have hnot : base.attributes.allows .null = false := by
      rw [Attributes.allows, hbase]
      rfl
    have hallows := allows_null_described hnull hnot
    rw [stateRule, presence, if_neg (by simp [hrequired]), Attributes.allows, allow_required]
    exact hallows
  refine ownState_of_kinds (P := fun rule => rule.attributes.allows .null = false) hbuiltin
    (fun hbase => hdescribed hbase.allow_eq) ?_ (fun _ => hdescribed rfl) ?_
  · intro base hbase values
    rw [Attributes.allows, allow_among]
    exact hdescribed hbase.allow_eq
  · rintro d rfl
    have hpresent : ¬ d.isOptional = true := Bool.eq_false_iff.mp hrequired
    rw [addressRule, presence, if_neg hpresent]
    rfl

namespace Page

variable {page : Page} {payload : FormData} {answers : State} {q : Question}
  {variant : ChoiceVariant} {d : ComponentDefinition} {list : ListDefinition}
  {reveals : List (Nat × Json × List Component)}

/-- A field whose reveal is selected in the state has an answer that is not null. -/
theorem answer_of_isSelected {state : State} (h : page.validateState state = .ok answers)
    (hq : q ∈ questions page.components) (hbuiltin : q.field.IsBuiltinField = true)
    (hsole : ∀ other ∈ questions page.components, other.name = q.name → other = q)
    (hrequired : q.isOptional = false) (hnull : q.field.definition.welcomesNull = false)
    {reveal : Reveal} {outer : List Reveal} (hbehind : q.behind = reveal :: outer)
    (hselected : reveal.isSelected state = true) :
    ∃ value, answers.get? q.name = some value ∧ value ≠ .null := by
  obtain ⟨hpass, hanswer⟩ := check_of_validateState h hq hsole
  rw [hbehind, check_behind, if_pos hselected] at hpass hanswer
  rw [hanswer]
  refine (isField_ownState hbuiltin).required.value_of_required ?_ ?_ hpass
  · rw [Rule.required, Rule.attributes_mapAttributes]
  · rw [Attributes.allows, allow_required]
    exact allows_null_ownState hbuiltin hrequired hnull

/-- The fields that a selected item reveals are answered: a submission that proceeds leaves no
answer that selects an item without the answers to the fields behind it. The names of the two fields
must be their own on the page, since of two rules for one name the later stands. -/
theorem revealed_field_answered {definition : PageDefinition}
    {sections : List SectionDefinition} {context : CompileContext} {conditions : Registry}
    {options : Options} {store store' : Store} {next : String} {state : State}
    (hcompile : Page.compile definition sections context conditions options = .ok page)
    (hbuiltin : context.types.IsBuiltin)
    (hsubmit : page.submit payload store = (.ok (.proceed next state), store'))
    (hq : q ∈ questions page.components) (hchoice : q.field = .choice variant d list reveals)
    (hallow : d.constraints.allow = none)
    {i : Nat} {item : Json} {group : List Component} (hitem : (i, item, group) ∈ reveals)
    {field : Component} (hfield : field ∈ group) (hform : field.isForm = true)
    (hrequired : field.definition.isOptional = false)
    (hnull : field.definition.welcomesNull = false)
    (hchooser : (stateNames page.components).count q.name = 1)
    (hinput : (formNames page.components).count q.name = 1)
    (hname : (stateNames page.components).count field.name = 1) :
    ∃ answers stored, page.answers payload = .ok answers ∧ page.pageState? state = some stored ∧
      ((answers.get? q.name).any (·.selects item) = true →
        (∃ value, answers.get? field.name = some value ∧ value ≠ .null) ∧
          ∃ value, stored.get? field.name = some value ∧ value ≠ .null) := by
  obtain ⟨answers, hanswers, rfl, -⟩ := submit_proceed hsubmit
  obtain ⟨stored, hstored, hget, -⟩ := pageState?_merge page store.held (ordered_answers hanswers)
  obtain ⟨data, hdata, hstate⟩ := answers_eq_ok_iff.mp hanswers
  refine ⟨answers, stored, hanswers, hstored, ?_⟩
  intro hselects
  have hrevealed := mem_questions_of_reveals page.components hq hchoice hitem hfield hform
  have hchooser_name : q.name = d.nameText := by
    rw [Question.name, hchoice]
    rfl
  have hown : q.name ∈ Side.form.names q := by
    rw [Side.names, hchoice, hchooser_name]
    exact List.mem_singleton_self _
  -- What the answers select was selected already in the state that the rule was asked by.
  have hsame := get?_chooser hdata hstate hq hchoice hallow
    (fun other hother hkey => eq_of_count_formNames hinput hq hown hother hkey)
    (fun other hother hname => eq_of_count_stateNames hchooser hq hother hname)
  rw [hsame, hchooser_name] at hselects
  obtain ⟨value, hvalue, hne⟩ := answer_of_isSelected hstate hrevealed
    (isBuiltinField_of_compileGroup hbuiltin (compileGroup_of_compile hcompile) _ hrevealed)
    (fun other hother hname' => eq_of_count_stateNames hname hrevealed hother hname')
    hrequired hnull rfl hselects
  change answers.get? field.name = some value at hvalue
  have hmerged := hget field.name
  rw [hvalue] at hmerged
  exact ⟨⟨value, hvalue, hne⟩, _, hmerged, mergeValue_ne_null _ hne⟩

/-! ### Consent, and a reason where it is refused -/

/-- A reason, with the values that are welcome as they are. -/
def reasonField (allow : Option Json) : ComponentDefinition :=
  { type := "TextField", name := some "reason", title := some "Reason",
    constraints := { allow := allow } }

/-- Consent or not, and what each of the two reveals. -/
def consentList (no yes : List ComponentDefinition) : ListDefinition :=
  { name := "consent", title := "Consent", type := .boolean,
    items := [{ text := "No", value := .bool false, revealed := some no },
      { text := "Yes", value := .bool true, revealed := some yes }] }

/-- The choice, with the values that are welcome as they are. -/
def consentField (allow : Option Json) : ComponentDefinition :=
  { type := "CheckboxesField", name := some "consent", title := some "Consent",
    options := { list := some "consent" }, constraints := { allow := allow } }

/-- The page that asks for consent. -/
def consentPage (allow : Option Json) (no yes : List ComponentDefinition)
    (reveals : List (Nat × Json × List Component)) : Page :=
  ⟨"/consent", "", none, [.choice .checkboxes (consentField allow) (consentList no yes) reveals],
    [], ⟨[], []⟩, {}⟩

theorem revealed_field_answered_consent :
    ∃ answers stored,
      (consentPage none [reasonField none] []
        [(0, .bool false, [.single (.text .line) (reasonField none)])]).answers
          [("consent", .arr [.str "false"]), ("reason", .str "Price")] = .ok answers ∧
        (consentPage none [reasonField none] []
          [(0, .bool false, [.single (.text .line) (reasonField none)])]).pageState?
            [("consent", .arr [.bool false]), ("reason", .str "Price")] = some stored ∧
        ((answers.get? "consent").any (·.selects (.bool false)) = true →
          (∃ value, answers.get? "reason" = some value ∧ value ≠ .null) ∧
            ∃ value, stored.get? "reason" = some value ∧ value ≠ .null) :=
  have hcompile : Page.compile { path := "/consent", components := [consentField none] } []
      ⟨[consentList [reasonField none] []], .builtin, "/consent"⟩ ⟨[], []⟩ {} =
        .ok (consentPage none [reasonField none] []
          [(0, .bool false, [.single (.text .line) (reasonField none)])]) := rfl
  have hsubmit : (consentPage none [reasonField none] []
      [(0, .bool false, [.single (.text .line) (reasonField none)])]).submit
        [("consent", .arr [.str "false"]), ("reason", .str "Price")] (.inMemory []) =
          (.ok (.proceed "/summary"
              [("consent", .arr [.bool false]), ("reason", .str "Price")]),
            .inMemory [("consent", .arr [.bool false]), ("reason", .str "Price")]) := rfl
  revealed_field_answered hcompile TypeRegistry.isBuiltin_builtin hsubmit
    (List.mem_cons_self ..) rfl rfl (List.mem_cons_self ..) (List.mem_cons_self ..) rfl rfl rfl
    (by decide) (by decide) (by decide)

/-- Whether a page of built-in components proceeds with a payload although its answers select an
item and lack a field that the item reveals and that is not optional. -/
def ProceedsIncomplete (definition : PageDefinition) (lists : List ListDefinition)
    (payload : FormData) : Prop :=
  ∃ page next state store answers,
    Page.compile definition [] ⟨lists, .builtin, definition.path⟩ ⟨[], []⟩ {} = .ok page ∧
      page.submit payload (.inMemory []) = (.ok (.proceed next state), store) ∧
      page.answers payload = .ok answers ∧
      ∃ q ∈ questions page.components, ∃ variant d list reveals i item group field,
        q.field = .choice variant d list reveals ∧ (i, item, group) ∈ reveals ∧ field ∈ group ∧
          field.isForm = true ∧ field.definition.isOptional = false ∧
          (answers.get? q.name).any (·.selects item) = true ∧
          (answers.get? field.name).getD .null = .null

/-- A field that welcomes null may be left blank, and a chooser that welcomes values which are converted
afterwards selects more than it did when the revealed fields were checked. -/
theorem exists_proceedsIncomplete :
    ProceedsIncomplete { path := "/consent", components := [consentField none] }
        [consentList [reasonField (some (.arr [.str "", .null]))] []]
        [("consent", .arr [.str "false"]), ("reason", .str "")] ∧
      ProceedsIncomplete
        { path := "/consent",
          components := [consentField (some (.arr [.arr [.str "FALSE", .str "true"]]))] }
        [consentList [reasonField none] []]
        [("consent", .arr [.str "FALSE", .str "true"])] := by
  refine ⟨⟨consentPage none _ _ _, _, _, _, _, rfl, rfl, rfl, _, List.mem_cons_self .., ?_⟩,
    ⟨consentPage _ _ _ _, _, _, _, _, rfl, rfl, rfl, _, List.mem_cons_self .., ?_⟩⟩
  all_goals
    exact ⟨_, _, _, _, _, _, _, _, rfl, List.mem_cons_self .., List.mem_cons_self .., rfl, rfl, rfl,
      rfl⟩

/-- A field may be left out whose name a later item gives to a field of its own: the page has one rule
for a name, and it is that of the later field. -/
theorem proceedsIncomplete_of_namesakes :
    ProceedsIncomplete { path := "/consent", components := [consentField none] }
      [consentList [reasonField none] [reasonField none]] [("consent", .arr [.str "false"])] :=
  ⟨consentPage none _ _ _, _, _, _, _, rfl, rfl, rfl, _, List.mem_cons_self ..,
    _, _, _, _, _, _, _, _, rfl, List.mem_cons_self .., List.mem_cons_self .., rfl, rfl, rfl, rfl⟩

end Page

end Questionnaire
