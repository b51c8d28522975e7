import Questionnaire.Proofs.Model.Parts

/-!
# Marked rows

A summary has a row for each component that takes answers, and a row is marked when a failure lies at
its answer, inside it or around it. In any state exactly those rows are marked whose part of the state
is missing or whose own answer is refused (`Summary.marked_iff`). What a component's list reveals has
no row, so a failing answer that is revealed is shown on the row of the component only when the
component's own answer fails as well (`Summary.marked_of_failure_iff`).
-/

namespace Questionnaire

/-! ## Which failures cover a row -/

theorem covers_singleton {path : List String} {name : String} :
    covers path [name] = true ↔ ∃ rest, path = name :: rest := by
  cases path with
  | nil => simp [covers]
  | cons first rest =>
      simp only [covers, List.isPrefixOf]
      grind

theorem covers_pair {path : List String} {name key : String} :
    covers path [name, key] = true ↔
      ∃ rest, path = name :: rest ∧ (rest = [] ∨ ∃ more, rest = key :: more) := by
  match path with
  | [] => simp [covers]
  | [first] => simp [covers, List.isPrefixOf]
  | first :: second :: rest =>
      simp only [covers, List.isPrefixOf]
      grind

/-- The place of an answer in the whole state. -/
def Page.place (page : Page) (name : String) : List String :=
  page.sectionName?.toList ++ [name]

/-- The row of a component of a page. -/
def Summary.rowOf (model : Model) (state : State) (page : Page) (c : Component) : SummaryRow :=
  Summary.row (model.failures state) page.sectionName?.toList
    (page.path ++ "?returnUrl=" ++ model.options.summaryPath) ((page.pageState? state).getD []) c

theorem Summary.inError_rowOf {model : Model} {state : State} {page : Page} {c : Component} :
    (rowOf model state page c).inError = true ↔
      ∃ failure ∈ model.failures state, covers failure.path (page.place c.name) = true :=
  List.any_eq_true

/-! ## The rows of a summary -/

theorem Summary.groups_of (model : Model) (state : State) :
    (Summary.of model state).groups = groupsOf (model.failures state) model state := by
  unfold Summary.of Model.failures
  cases model.validateState state <;> rfl

theorem Summary.mem_rows_iff {model : Model}
    (hsections : ∀ page ∈ model.pages, ∀ name, page.sectionName? = some name →
      ∃ s ∈ model.definition.sections, s.name = name) {state : State} {row : SummaryRow} :
    row ∈ (Summary.of model state).rows ↔
      ∃ page ∈ model.pages, ∃ c ∈ page.formComponents, row = rowOf model state page c := by
  rw [rows, groups_of]
  constructor
  · intro hrow
    obtain ⟨g, hg, hrow⟩ := List.mem_flatMap.mp hrow
    obtain ⟨s, -, rfl⟩ := List.mem_map.mp (List.mem_filter.mp hg).1
    obtain ⟨page, hpage, hrow⟩ := List.mem_flatMap.mp hrow
    obtain ⟨c, hc, rfl⟩ := List.mem_map.mp hrow
    exact ⟨page, (mem_pagesIn_iff.mp hpage).1, c, hc, rfl⟩
  · rintro ⟨page, hpage, c, hc, rfl⟩
    obtain ⟨s, hs, hname⟩ : ∃ s ∈ sectionsOf model,
        page.sectionName? = s.map SectionDefinition.name := by
      cases hname : page.sectionName? with
      | none => exact ⟨none, List.mem_cons_self .., rfl⟩
      | some name =>
          obtain ⟨s, hs, rfl⟩ := hsections page hpage name hname
          exact ⟨some s, List.mem_cons_of_mem _ (List.mem_map_of_mem hs), rfl⟩
    have hrow : rowOf model state page c ∈ (group (model.failures state) model state s).rows :=
      List.mem_flatMap.mpr ⟨page, mem_pagesIn_iff.mpr ⟨hpage, hname⟩, List.mem_map_of_mem hc⟩
    refine List.mem_flatMap.mpr ⟨_, List.mem_filter.mpr ⟨List.mem_map_of_mem hs, ?_⟩, hrow⟩
    simpa using List.ne_nil_of_mem hrow

/-! ## Failures at and around an answer -/

/-- The rules of the part of the state that a section has, or of the whole state. -/
def Model.rulesIn (model : Model) : Option String → Keys
  | none => model.rules
  | some name => pagesKeys (pagesIn model.pages (some name))

/-- A section's part is refused as a whole, or what is wrong with it is at its members. -/
theorem check_section_cases (pages : List Page) (title name : String) (options : ValidationOptions)
    (siblings : Option Fields) (value : Option Json) :
    (value.bind Json.obj? = none ∧ ∃ fault,
        (((pagesSchema pages).labelled title).check options name siblings value).failures =
          [⟨[], title, fault⟩]) ∨
      ∃ part, value.bind Json.obj? = some part ∧
        (((pagesSchema pages).labelled title).check options name siblings value).failures =
          (Rule.checkKeys options (pagesKeys pages) part).2 ++
            (Rule.checkUnknown options.allowUnknown (pagesKeys pages) part).2 := by
  rw [labelled_pagesSchema]
  cases value with
  | none =>
      rw [Rule.check]
      exact .inl ⟨rfl, .missing, rfl⟩
  | some value =>
      cases value with
      | obj part =>
          rw [Rule.check_object rfl rfl]
          exact .inr ⟨part, rfl, rfl⟩
      | _ =>
          rw [Rule.check]
          exact .inl ⟨rfl, .notObject, rfl⟩

/-- What is wrong at a key of a section's part, or with the part as a whole. -/
theorem exists_failure_section_iff {pages : List Page} {key : String} {rule : Rule}
    (hrule : (pagesKeys pages).get? key = some rule) (title name : String)
    (options : ValidationOptions) (siblings : Option Fields) (value : Option Json) :
    (∃ failure ∈ (((pagesSchema pages).labelled title).check options name siblings value).failures,
        failure.path = [] ∨ ∃ more, failure.path = key :: more) ↔
      ∀ part, value.bind Json.obj? = some part →
        (rule.check options key (some part) (part.get? key)).failures ≠ [] := by
  rcases check_section_cases pages title name options siblings value with
    ⟨hnone, fault, hfailures⟩ | ⟨part, hpart, hfailures⟩ <;> rw [hfailures]
  · rw [hnone]
    exact iff_of_true ⟨_, List.mem_singleton_self _, .inl rfl⟩ nofun
  · have hkey := Rule.exists_failure_key_iff options options.allowUnknown part
      (nodup_names_pagesKeys pages) hrule
    rw [hpart]
    constructor
    · rintro ⟨failure, hmem, hnil | hmore⟩ other hother
      · exact absurd hnil (Rule.path_ne_nil_of_mem hmem)
      · obtain rfl := Option.some.inj hother
        exact hkey.mp ⟨failure, hmem, hmore⟩
    · intro h
      obtain ⟨failure, hmem, hmore⟩ := hkey.mpr (h part rfl)
      exact ⟨failure, hmem, .inr hmore⟩

namespace Summary

section

variable {model : Model}
  (hschema : model.schema = modelSchema model.definition.sections model.pages)
  (hsections : ∀ page ∈ model.pages, ∀ name, page.sectionName? = some name →
    ∃ s ∈ model.definition.sections, s.name = name)
  {page : Page} (hpage : page ∈ model.pages)

include hschema hsections hpage

/-- The failures that begin at a section with pages are those of its part. -/
theorem exists_failure_part_iff {name : String} (hname : page.sectionName? = some name)
    (state : State) : ∃ title, ∀ P : List String → Prop,
      (∃ failure ∈ model.failures state, ∃ rest, failure.path = name :: rest ∧ P rest) ↔
        ∃ failure ∈ (((pagesSchema (pagesIn model.pages (some name))).labelled title).check
          model.settings name (some state) (state.get? name)).failures, P failure.path := by
  have hpages : pagesIn model.pages (some name) ≠ [] :=
    List.ne_nil_of_mem (mem_pagesIn_iff.mpr ⟨hpage, hname⟩)
  obtain ⟨title, hrule⟩ := get?_sectionsKeys (pagesKeys (pagesIn model.pages none))
    (hsections page hpage name hname) hpages
  refine ⟨title, fun P => ?_⟩
  rw [Model.failures_eq hschema]
  exact Rule.exists_failure_at_iff model.settings model.settings.allowUnknown state
    model.nodup_names_rules hrule

/-- A row is marked when the page's part of the state is no object, or when the rule that counts for
the answer refuses it. -/
theorem inError_rowOf_iff {c : Component} {rule : Rule}
    (hrule : (model.rulesIn page.sectionName?).get? c.name = some rule) (state : State) :
    (rowOf model state page c).inError = true ↔
      ∀ part, page.pageState? state = some part →
        (rule.check model.settings c.name (some part) (part.get? c.name)).failures ≠ [] := by
  rw [inError_rowOf, Page.place, Page.pageState?]
  cases hname : page.sectionName? with
  | none =>
      rw [hname] at hrule
      simp only [Option.toList_none, List.nil_append, covers_singleton, Option.some.injEq,
        forall_eq']
      rw [Model.failures_eq hschema]
      exact Rule.exists_failure_key_iff model.settings model.settings.allowUnknown state
        model.nodup_names_rules hrule
  | some name =>
      rw [hname] at hrule
      obtain ⟨title, hiff⟩ := exists_failure_part_iff hschema hsections hpage hname state
      simp only [Option.toList_some, List.singleton_append, covers_pair]
      rw [hiff fun rest => rest = [] ∨ ∃ more, rest = c.name :: more]
      exact exists_failure_section_iff hrule ..

/-- A failure inside a section's part is not beside one of the part as a whole. -/
theorem path_ne_of_inside {name key : String} (hname : page.sectionName? = some name) {state : State}
    {failure other : Failure} (hfailure : failure ∈ model.failures state)
    (hinside : [name, key] <+: failure.path) (hother : other ∈ model.failures state) :
    other.path ≠ [name] := by
  intro hpath
  obtain ⟨rest, hrest⟩ := hinside
  obtain ⟨title, hiff⟩ := exists_failure_part_iff hschema hsections hpage hname state
  obtain ⟨inner, hinner, hnil⟩ := (hiff (· = [])).mp ⟨other, hother, [], hpath, rfl⟩
  obtain ⟨outer, houter, hne⟩ := (hiff (· ≠ [])).mp
    ⟨failure, hfailure, key :: rest, hrest.symm, nofun⟩
  rcases check_section_cases (pagesIn model.pages (some name)) title name model.settings (some state)
    (state.get? name) with ⟨-, fault, hfailures⟩ | ⟨part, -, hfailures⟩
  · rw [hfailures] at houter
    exact hne (congrArg Failure.path (List.mem_singleton.mp houter))
  · rw [hfailures] at hinner
    exact Rule.path_ne_nil_of_mem hinner hnil

end

end Summary

/-! ## Answers with a name of their own -/

theorem get?_pagesKeys_of_nodup {pages : List Page} (hnames : (pagesNames pages).Nodup) {page : Page}
    (hpage : page ∈ pages) {key : String} {rule : Rule}
    (hrule : (stateKeys page.components).get? key = some rule) :
    (pagesKeys pages).get? key = some rule := by
  refine Keys.get?_of_mem (nodup_names_pagesKeys pages) ?_
  rw [pagesKeys_eq_flatMap hnames]
  exact List.mem_flatMap.mpr ⟨page, hpage, Keys.mem_of_get? hrule⟩

/-- The rule of a page counts for its answers as long as their names are their own. -/
theorem Model.get?_rulesIn {model : Model}
    (hnames : ∀ name, (pagesNames (pagesIn model.pages name)).Nodup)
    (hapart : ∀ s ∈ model.definition.sections, s.name ∉ pagesNames (pagesIn model.pages none))
    {page : Page} (hpage : page ∈ model.pages) {key : String} {rule : Rule}
    (hrule : (stateKeys page.components).get? key = some rule) :
    (model.rulesIn page.sectionName?).get? key = some rule := by
  have hpart := get?_pagesKeys_of_nodup (hnames page.sectionName?)
    (mem_pagesIn_iff.mpr ⟨hpage, rfl⟩) hrule
  cases hname : page.sectionName? with
  | none =>
      rw [hname] at hpart
      have htop : ∀ s ∈ model.definition.sections,
          s.name ∉ (pagesKeys (pagesIn model.pages none)).names :=
        fun s hs hkey => hapart s hs (mem_names_pagesKeys_iff.mp hkey)
      rw [rulesIn, rules, sectionsKeys_eq_append model.pages htop, Keys.get?_append, hpart]
      rfl
  | some name =>
      rw [hname] at hpart
      exact hpart

theorem Page.exists_rule_of_mem_formComponents {page : Page} {c : Component}
    (hc : c ∈ page.formComponents) :
    ∃ rule, (stateKeys page.components).get? c.name = some rule := by
  obtain ⟨hmem, hform⟩ := List.mem_filter.mp hc
  have hq : (⟨c, []⟩ : Question) ∈ questions page.components :=
    mem_questions_iff.mpr ⟨c, hmem, self_mem_questions hform⟩
  refine Option.isSome_iff_exists.mp ?_
  rw [Keys.isSome_get?, Keys.has_iff_mem_names, mem_names_stateKeys_iff]
  exact List.mem_map_of_mem hq

/-- Only the failing rows are marked. A summary has one row for each component of a page that takes
answers. Whatever the state, the row is marked if and only if the page's part of the state is missing
or no object, or the rule that the page has under the component's name refuses the value there. -/
theorem Summary.marked_iff {source : Json} {options : Options} {types : TypeRegistry} {model : Model}
    (hmodel : Model.ofJson source options types = .ok model)
    (hnames : ∀ name, (pagesNames (pagesIn model.pages name)).Nodup)
    (hapart : ∀ s ∈ model.definition.sections, s.name ∉ pagesNames (pagesIn model.pages none))
    (state : State) :
    (∀ row, row ∈ (Summary.of model state).rows ↔
        ∃ page ∈ model.pages, ∃ c ∈ page.formComponents, row = rowOf model state page c) ∧
      ∀ page ∈ model.pages, ∀ c ∈ page.formComponents,
        ∃ rule, (stateKeys page.components).get? c.name = some rule ∧
          ((rowOf model state page c).inError = true ↔
            page.pageState? state = none ∨
              ∃ part, page.pageState? state = some part ∧
                (rule.check model.settings c.name (some part) (part.get? c.name)).failures ≠ []) := by
  obtain ⟨hschema, -⟩ := Model.page_of_compile hmodel
  have hsections := Model.section_of_ofJson hmodel
  refine ⟨fun row => mem_rows_iff hsections, fun page hpage c hc => ?_⟩
  obtain ⟨rule, hrule⟩ := Page.exists_rule_of_mem_formComponents hc
  refine ⟨rule, hrule, ?_⟩
  rw [inError_rowOf_iff hschema hsections hpage (Model.get?_rulesIn hnames hapart hpage hrule)]
  cases page.pageState? state with
  | none => simp
  | some part => simp

theorem marked_iff_stay :
    Model.ofJson staySource {} .builtin = .ok (compiled staySource) ∧
      (Summary.of (compiled staySource) stayState).rows.map (fun row => (row.name, row.inError)) =
        [("name", true), ("note", true), ("consent", false)] ∧
      ∀ page ∈ (compiled staySource).pages, ∀ c ∈ page.formComponents,
        ∃ rule, (stateKeys page.components).get? c.name = some rule ∧
          ((Summary.rowOf (compiled staySource) stayState page c).inError = true ↔
            page.pageState? stayState = none ∨
              ∃ part, page.pageState? stayState = some part ∧
                (rule.check (compiled staySource).settings c.name (some part)
                  (part.get? c.name)).failures ≠ []) := by
  have hmodel : Model.ofJson staySource {} .builtin = .ok (compiled staySource) := by
    with_unfolding_all rfl
  refine ⟨hmodel, by decide +kernel, (Summary.marked_iff hmodel ?_ ?_ stayState).2⟩
  · exact Model.nodup_pagesNames_pagesIn (by with_unfolding_all decide)
  · with_unfolding_all decide

/-! ## What a list reveals -/

theorem Page.covers_place_iff {page : Page} {name : String} {path : List String} :
    covers path (page.place name) = true ↔
      page.place name <+: path ∨ ∃ own, page.sectionName? = some own ∧ path = [own] := by
  rw [Page.place]
  cases page.sectionName? with
  | none =>
      simp only [Option.toList_none, List.nil_append, covers_singleton]
      constructor
      · rintro ⟨rest, rfl⟩
        exact .inl ⟨rest, rfl⟩
      · rintro (⟨rest, rfl⟩ | ⟨own, hnone, -⟩)
        · exact ⟨rest, rfl⟩
        · exact nomatch hnone
  | some own =>
      simp only [Option.toList_some, List.singleton_append, covers_pair]
      constructor
      · rintro ⟨rest, rfl, rfl | ⟨more, rfl⟩⟩
        · exact .inr ⟨own, rfl, rfl⟩
        · exact .inl ⟨more, rfl⟩
      · rintro (⟨more, rfl⟩ | ⟨other, hown, rfl⟩)
        · exact ⟨name :: more, rfl, .inr ⟨more, rfl⟩⟩
        · obtain rfl := Option.some.inj hown
          exact ⟨[], rfl, .inl rfl⟩

/-- A failing answer is shown on the row of the component that asks for it or reveals it, if and only
if the answer is the component's own or the component's own answer fails as well. -/
theorem Summary.marked_of_failure_iff {source : Json} {options : Options} {types : TypeRegistry}
    {model : Model} (hmodel : Model.ofJson source options types = .ok model) (state : State) :
    ∀ page ∈ model.pages, ∀ c ∈ page.formComponents,
      rowOf model state page c ∈ (Summary.of model state).rows ∧
        ∀ q ∈ c.questions, ∀ failure ∈ model.failures state, page.place q.name <+: failure.path →
          ((rowOf model state page c).inError = true ↔
            q.name = c.name ∨
              ∃ other ∈ model.failures state, page.place c.name <+: other.path) := by
  obtain ⟨hschema, -⟩ := Model.page_of_compile hmodel
  have hsections := Model.section_of_ofJson hmodel
  intro page hpage c hc
  refine ⟨(mem_rows_iff hsections).mpr ⟨page, hpage, c, hc, rfl⟩, ?_⟩
  intro q _ failure hfailure hplace
  rw [inError_rowOf]
  constructor
  · rintro ⟨other, hother, hcovers⟩
    rcases Page.covers_place_iff.mp hcovers with hcovers | ⟨own, hname, hpath⟩
    · exact .inr ⟨other, hother, hcovers⟩
    · rw [Page.place, hname] at hplace
      exact absurd hpath (path_ne_of_inside hschema hsections hpage hname hfailure hplace hother)
  · rintro (hname | ⟨other, hother, hcovers⟩)
    · exact ⟨failure, hfailure, Page.covers_place_iff.mpr (.inl (hname ▸ hplace))⟩
    · exact ⟨other, hother, Page.covers_place_iff.mpr (.inl hcovers)⟩

theorem marked_of_failure_stay :
    Model.ofJson staySource {} .builtin = .ok (compiled staySource) ∧
      ∃ page ∈ (compiled staySource).pages, ∃ c ∈ page.formComponents, ∃ q ∈ c.questions,
        ∃ failure ∈ (compiled staySource).failures stayState, c.name = "consent" ∧
          q.name = "reason" ∧ page.place q.name <+: failure.path ∧
          ((Summary.rowOf (compiled staySource) stayState page c).inError = true ↔
            q.name = c.name ∨ ∃ other ∈ (compiled staySource).failures stayState,
              page.place c.name <+: other.path) := by
  have hmodel : Model.ofJson staySource {} .builtin = .ok (compiled staySource) := by
    with_unfolding_all rfl
  have hfailure : ∃ page ∈ (compiled staySource).pages, ∃ c ∈ page.formComponents,
      ∃ q ∈ c.questions, ∃ failure ∈ (compiled staySource).failures stayState,
        c.name = "consent" ∧ q.name = "reason" ∧ page.place q.name <+: failure.path := by
    decide +kernel
  obtain ⟨page, hpage, c, hc, q, hq, failure, hmem, hconsent, hreason, hplace⟩ := hfailure
  obtain ⟨-, hmarked⟩ := Summary.marked_of_failure_iff hmodel stayState page hpage c hc
  exact ⟨hmodel, page, hpage, c, hc, q, hq, failure, hmem, hconsent, hreason, hplace,
    hmarked q hq failure hmem hplace⟩

/-- A refusal without its reason is not ready, and no row is marked. -/
theorem exists_failure_unmarked :
    ∃ model state, Model.ofJson consentSource {} .builtin = .ok model ∧
      (Summary.of model state).failures.map Failure.path = [["visit", "reason"]] ∧
      (Summary.of model state).ready = false ∧
      ∀ row ∈ (Summary.of model state).rows, row.inError = false := by
  refine ⟨compiled consentSource, [("visit", .obj [("consent", .arr [.bool false])])], ?_, ?_, ?_, ?_⟩
  · with_unfolding_all rfl
  · decide +kernel
  · decide +kernel
  · decide +kernel

end Questionnaire
