import Questionnaire.Proofs.Definition.Members

/-!
# Structured definitions

A value without structural issues spells a definition (`FormDefinition.exists_of_issues`), and the
definition is well formed: the sections of its pages are declared, names are used once, and every
value is within what the authoring format can spell.
-/

namespace Questionnaire

/-! ## Well-formed parts -/

/-- The number of rows has 32 bits. -/
structure ComponentOptions.WellFormed (options : ComponentOptions) : Prop where
  rows_lt : ∀ rows, options.rows = some rows → rows < word32Limit

/-- A value that is accepted as it is, is not null. -/
structure AnswerConstraints.WellFormed (constraints : AnswerConstraints) : Prop where
  allow_ne_null : constraints.allow ≠ some .null

theorem ComponentOptions.wellFormed_default : ComponentOptions.WellFormed {} :=
  ⟨fun _ h => nomatch h⟩

theorem AnswerConstraints.wellFormed_default : AnswerConstraints.WellFormed {} :=
  ⟨fun h => nomatch h⟩

structure ComponentDefinition.WellFormed (d : ComponentDefinition) : Prop where
  options : d.options.WellFormed
  constraints : d.constraints.WellFormed

/-- The item's value is of its list's type. -/
structure ListItem.WellFormed (type : ListType) (item : ListItem) : Prop where
  admits : type.admits item.value = true
  revealed : ∀ components, item.revealed = some components → ∀ d ∈ components, d.WellFormed

structure ListDefinition.WellFormed (list : ListDefinition) : Prop where
  items : ∀ item ∈ list.items, item.WellFormed list.type

/-- The page's path starts with a slash, and its section is declared. -/
structure PageDefinition.WellFormed (declared : List String) (page : PageDefinition) : Prop where
  path : page.path.toList.head? = some '/'
  declared : ∀ name, page.sectionName = some name → name ∈ declared
  components : ∀ d ∈ page.components, d.WellFormed

/-- Sections, lists and pages have names of their own. -/
structure FormDefinition.WellFormed (form : FormDefinition) : Prop where
  pages : ∀ page ∈ form.pages, page.WellFormed (form.sections.map (·.name))
  lists : ∀ list ∈ form.lists, list.WellFormed
  sectionNames : (form.sections.map (·.name)).Nodup
  listNames : (form.lists.map (·.name)).Nodup
  pagePaths : (form.pages.map (·.path)).Nodup

/-! ## Reading parts without an issue -/

open Structure

variable {value : Json} {fields : Fields} {place : Place}

theorem ComponentOptions.exists_of_issues (h : objectIssues optionsIssues value place = []) :
    ∃ options, ComponentOptions.ofJson? value = some options ∧ options.WellFormed := by
  obtain ⟨fields, rfl, hissues⟩ := objectIssues_eq_nil_iff.mp h
  simp only [optionsIssues, List.append_eq_nil_iff] at hissues
  obtain ⟨⟨⟨⟨hrequired, hbold⟩, hclasses⟩, hlist⟩, hrows⟩ := hissues
  obtain ⟨required, hrequired⟩ := exists_optional_boolean hrequired
  obtain ⟨bold, hbold⟩ := exists_optional_boolean hbold
  obtain ⟨rows, hrows⟩ := exists_optional_count hrows
  refine ⟨⟨required, text? fields "classes", text? fields "list", bold, rows⟩, ?_, ⟨?_⟩⟩
  · simp [ofJson?, hrequired, optional_text hclasses, optional_text hlist, hbold, hrows]
  · rintro n rfl
    obtain ⟨count, -, -, hcount⟩ := Slots.of_optional_eq_some hrows
    exact lt_of_readCount? hcount

theorem AnswerConstraints.exists_of_issues (h : objectIssues constraintsIssues value place = []) :
    ∃ constraints, AnswerConstraints.ofJson? value = some constraints ∧
      constraints.WellFormed := by
  obtain ⟨fields, rfl, hissues⟩ := objectIssues_eq_nil_iff.mp h
  simp only [constraintsIssues, List.append_eq_nil_iff] at hissues
  obtain ⟨⟨hmin, hmax⟩, htrim⟩ := hissues
  obtain ⟨min, hmin⟩ := exists_optional_number hmin
  obtain ⟨max, hmax⟩ := exists_optional_number hmax
  obtain ⟨trim, htrim⟩ := exists_optional_boolean htrim
  obtain ⟨allow, hallow⟩ : ∃ allow, Slots.optional (Fields.get? fields) "allow" some = some allow :=
    Slots.exists_optional fun value _ => ⟨value, rfl⟩
  refine ⟨⟨min, max, trim, allow⟩, ?_, ⟨?_⟩⟩
  · simp [ofJson?, hmin, hmax, htrim, hallow]
  · rintro rfl
    obtain ⟨value, -, hnull, hvalue⟩ := Slots.of_optional_eq_some hallow
    exact hnull (Option.some.inj hvalue)

theorem ComponentDefinition.exists_of_issues (h : objectIssues componentIssues value place = []) :
    ∃ d, ComponentDefinition.ofJson? value = some d ∧ d.WellFormed := by
  obtain ⟨fields, rfl, hissues⟩ := objectIssues_eq_nil_iff.mp h
  simp only [componentIssues, List.append_eq_nil_iff, List.flatMap_eq_nil_iff,
    List.forall_mem_cons] at hissues
  obtain ⟨⟨⟨⟨hkeys, htype⟩, hname, htitle, hhint, hcontent, hicon, -⟩, hoptions⟩, hschema⟩ := hissues
  obtain ⟨type, htype, -⟩ := required_text htype
  obtain ⟨options, hoptions, hfine⟩ :=
    exists_inside (fun _ _ => ComponentOptions.exists_of_issues) ComponentOptions.wellFormed_default hoptions
  obtain ⟨constraints, hschema, hright⟩ :=
    exists_inside (fun _ _ => AnswerConstraints.exists_of_issues) AnswerConstraints.wellFormed_default hschema
  refine ⟨⟨type, text? fields "name", text? fields "title", text? fields "hint",
    text? fields "content", text? fields "icon", options, constraints⟩, ?_, ⟨hfine, hright⟩⟩
  simp [ofJson?, slots?_of_keyIssues hkeys, htype, optional_text hname, optional_text htitle,
    optional_text hhint, optional_text hcontent, optional_text hicon, hoptions, hschema]

theorem exists_components (h : componentsIssues fields place = []) :
    ∃ components, Slots.withDefault fields.get? "components" []
        (readList? ComponentDefinition.ofJson?) = some components ∧
      ∀ d ∈ components, d.WellFormed :=
  exists_each_of (fun _ _ => ComponentDefinition.exists_of_issues) h

theorem exists_revealed_of_issues (h : objectIssues revealIssues value place = []) :
    ∃ components, readRevealed? value = some components ∧ ∀ d ∈ components, d.WellFormed := by
  obtain ⟨fields, rfl, hissues⟩ := objectIssues_eq_nil_iff.mp h
  obtain ⟨hkeys, hcomponents⟩ := List.append_eq_nil_iff.mp hissues
  obtain ⟨components, hcomponents, hall⟩ := exists_components hcomponents
  exact ⟨components, by simp [readRevealed?, slots?_of_keyIssues hkeys, hcomponents], hall⟩

theorem ListItem.exists_of_issues {type : ListType}
    (h : objectIssues (itemIssues (some type)) value place = []) :
    ∃ item, ListItem.ofJson? value = some item ∧ item.WellFormed type := by
  obtain ⟨fields, rfl, hissues⟩ := objectIssues_eq_nil_iff.mp h
  simp only [itemIssues, valueIssues, List.append_eq_nil_iff] at hissues
  obtain ⟨⟨⟨⟨hkeys, htext⟩, hdescription⟩, hvalue, htype⟩, hconditional⟩ := hissues
  obtain ⟨text, htext, -⟩ := required_text htext
  obtain ⟨value, hvalue⟩ := missingIssues_eq_nil_iff.mp hvalue
  obtain ⟨revealed, hrevealed⟩ : ∃ revealed,
      Slots.optional (Fields.get? fields) "conditional" readRevealed? = some revealed :=
    Slots.exists_optional fun value hvalue => by
      obtain ⟨components, hcomponents, -⟩ :=
        exists_revealed_of_issues (insideIssues_eq_nil_iff.mp hconditional value hvalue)
      exact ⟨components, hcomponents⟩
  refine ⟨⟨text, value, text? fields "description", revealed⟩, ?_,
    ⟨memberIssues_eq_nil_iff.mp htype value hvalue, ?_⟩⟩
  · simp [ofJson?, slots?_of_keyIssues hkeys, htext, Slots.required_of_eq_some hvalue,
      optional_text hdescription, hrevealed]
  · rintro components rfl
    obtain ⟨inside, hinside, -, hread⟩ := Slots.of_optional_eq_some hrevealed
    obtain ⟨others, hothers, hall⟩ :=
      exists_revealed_of_issues (insideIssues_eq_nil_iff.mp hconditional inside hinside)
    obtain rfl := Option.some.inj (hread.symm.trans hothers)
    exact hall

theorem ListType.exists_of_issues (h : listTypeIssues fields place = []) :
    ∃ type, Slots.required fields.get? "type" ListType.ofJson? = some type ∧
      (text? fields "type").bind ListType.ofName? = some type := by
  obtain ⟨htext, hname⟩ := List.append_eq_nil_iff.mp h
  obtain ⟨name, hmember⟩ := textIssues_eq_nil_iff.mp htext
  have hget : text? fields "type" = some name := by simp [text?, hmember]
  rw [hget] at hname ⊢
  obtain ⟨type, htype⟩ : ∃ type, ListType.ofName? name = some type := by
    rw [← Option.isSome_iff_exists]
    by_contra hnone
    simp [hnone] at hname
  exact ⟨type, by simp [Slots.required, hmember, ofJson?, htype], htype⟩

theorem ListDefinition.exists_of_issues (h : objectIssues listIssues value place = []) :
    ∃ list, ListDefinition.ofJson? value = some list ∧ list.WellFormed ∧
      textIn? "name" value = some list.name := by
  obtain ⟨fields, rfl, hissues⟩ := objectIssues_eq_nil_iff.mp h
  simp only [listIssues, List.append_eq_nil_iff] at hissues
  obtain ⟨⟨⟨⟨⟨hkeys, htitle⟩, htype⟩, hpresent⟩, hitems⟩, hname⟩ := hissues
  obtain ⟨name, hname, hnamed⟩ := required_text hname
  obtain ⟨title, htitle, -⟩ := required_text htitle
  obtain ⟨type, htype, hbound⟩ := ListType.exists_of_issues htype
  rw [hbound] at hitems
  obtain ⟨items, hitems, hall⟩ := exists_each_of (fun _ _ => ListItem.exists_of_issues) hitems
  obtain ⟨present, hpresent⟩ := missingIssues_eq_nil_iff.mp hpresent
  rw [← Slots.required_eq_withDefault hpresent] at hitems
  exact ⟨⟨name, title, type, items⟩,
    by simp [ofJson?, slots?_of_keyIssues hkeys, hname, htitle, htype, hitems], ⟨hall⟩, hnamed⟩

theorem SectionDefinition.exists_of_issues (h : objectIssues sectionIssues value place = []) :
    ∃ s, SectionDefinition.ofJson? value = some s ∧ textIn? "name" value = some s.name := by
  obtain ⟨fields, rfl, hissues⟩ := objectIssues_eq_nil_iff.mp h
  simp only [sectionIssues, List.append_eq_nil_iff] at hissues
  obtain ⟨⟨hkeys, htitle⟩, hname⟩ := hissues
  obtain ⟨name, hname, hnamed⟩ := required_text hname
  obtain ⟨title, htitle, -⟩ := required_text htitle
  exact ⟨⟨name, title⟩, by simp [ofJson?, slots?_of_keyIssues hkeys, hname, htitle], hnamed⟩

theorem ConditionDefinition.exists_of_issues (h : objectIssues conditionIssues value place = []) :
    ∃ condition, ConditionDefinition.ofJson? value = some condition := by
  obtain ⟨fields, rfl, hissues⟩ := objectIssues_eq_nil_iff.mp h
  simp only [conditionIssues, List.append_eq_nil_iff] at hissues
  obtain ⟨⟨hkeys, hname⟩, hvalue⟩ := hissues
  obtain ⟨name, hname, -⟩ := required_text hname
  obtain ⟨text, hvalue, -⟩ := required_text hvalue
  exact ⟨⟨name, text⟩, by simp [ofJson?, slots?_of_keyIssues hkeys, hname, hvalue]⟩

theorem RouteDefinition.exists_of_issues (h : objectIssues routeIssues value place = []) :
    ∃ route, RouteDefinition.ofJson? value = some route := by
  obtain ⟨fields, rfl, hissues⟩ := objectIssues_eq_nil_iff.mp h
  simp only [routeIssues, List.append_eq_nil_iff] at hissues
  obtain ⟨⟨hkeys, hpath⟩, hguard⟩ := hissues
  obtain ⟨path, hpath, -⟩ := required_text hpath
  exact ⟨⟨path, text? fields "if"⟩,
    by simp [ofJson?, slots?_of_keyIssues hkeys, hpath, optional_text hguard]⟩

theorem PageDefinition.exists_of_issues {declared : List String}
    (h : objectIssues (pageIssues declared) value place = []) :
    ∃ page, PageDefinition.ofJson? value = some page ∧ page.WellFormed declared ∧
      textIn? "path" value = some page.path := by
  obtain ⟨fields, rfl, hissues⟩ := objectIssues_eq_nil_iff.mp h
  simp only [pageIssues, pathIssues, pageSectionIssues, List.append_eq_nil_iff] at hissues
  obtain ⟨⟨⟨⟨⟨hkeys, hpath, hslash⟩, htitle⟩, hsection, hdeclared⟩, hcomponents⟩, hnext⟩ := hissues
  obtain ⟨path, hpath, hpathed⟩ := required_text hpath
  obtain ⟨components, hcomponents, hall⟩ := exists_components hcomponents
  obtain ⟨routes, hnext, -⟩ := exists_each_of (Q := fun _ => True) (fun _ _ h => by
    obtain ⟨route, hroute⟩ := RouteDefinition.exists_of_issues h
    exact ⟨route, hroute, trivial⟩) hnext
  refine ⟨⟨path, text? fields "title", text? fields "section", components, routes⟩, ?_,
    ⟨?_, ?_, hall⟩, hpathed⟩
  · simp [ofJson?, slots?_of_keyIssues hkeys, hpath, optional_text htitle, optional_text hsection,
      hcomponents, hnext]
  · rw [hpathed] at hslash
    simpa using hslash
  · intro name hname
    dsimp only at hname
    rw [hname] at hdeclared
    simpa using hdeclared

/-- A value without structural issues spells a well-formed definition. -/
theorem FormDefinition.exists_of_issues {source : Json} (h : Structure.issues source = []) :
    ∃ form, FormDefinition.ofJson? source = some form ∧ form.WellFormed := by
  obtain ⟨fields, rfl, hissues⟩ := objectIssues_eq_nil_iff.mp h
  simp only [formIssues, List.append_eq_nil_iff] at hissues
  obtain ⟨⟨⟨⟨⟨⟨⟨⟨hkeys, hsections⟩, hsectionNames⟩, hlists⟩, hlistNames⟩, hconditions⟩, hpresent⟩,
    hpages⟩, hpaths⟩ := hissues
  obtain ⟨sections, hsections, hnamed⟩ :=
    exists_each (fun _ _ => SectionDefinition.exists_of_issues) hsections
  have hnames := namesIn_eq hnamed
  obtain ⟨lists, hlists, hlisted⟩ :=
    exists_each (fun _ _ => ListDefinition.exists_of_issues) hlists
  obtain ⟨conditions, hconditions, -⟩ := exists_each_of (Q := fun _ => True) (fun _ _ h => by
    obtain ⟨condition, hcondition⟩ := ConditionDefinition.exists_of_issues h
    exact ⟨condition, hcondition, trivial⟩) hconditions
  obtain ⟨pages, hpages, hpaged⟩ :=
    exists_each (fun _ _ => PageDefinition.exists_of_issues) hpages
  obtain ⟨present, hpresent⟩ := missingIssues_eq_nil_iff.mp hpresent
  rw [← Slots.required_eq_withDefault hpresent] at hpages
  refine ⟨⟨pages, sections, lists, conditions⟩, ?_, ?_⟩
  · simp [ofJson?, slots?_of_keyIssues hkeys, hpages, hsections, hlists, hconditions]
  · refine ⟨forall_mem_of_forall₂ hpaged fun _ _ hpage => ?_,
      forall_mem_of_forall₂ hlisted fun _ _ hlist => hlist.1, ?_, ?_, ?_⟩
    · simpa [hnames] using hpage.1
    · exact (duplicateIssues_eq_nil_iff hnames).mp hsectionNames
    · exact (duplicateIssues_eq_nil_iff (namesIn_eq (hlisted.imp fun _ _ h => h.2))).mp hlistNames
    · exact (duplicateIssues_eq_nil_iff (namesIn_eq (hpaged.imp fun _ _ h => h.2))).mp hpaths

end Questionnaire
