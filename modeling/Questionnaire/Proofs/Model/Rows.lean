import Questionnaire.Proofs.Model.Marking
import Questionnaire.Proofs.Model.PageByPage
import Questionnaire.Proofs.Model.Rebuilding

/-!
# The rows of a summary

A summary goes through all pages once for each section and keeps those of the section. Since a
structured definition gives every section a name of its own and declares the sections of its pages,
this comes to a row for every question: the questions of the pages outside sections, then those of
each declared section, in the order in which they are written, and all of them once
(`Summary.rows_of_ofJson`). What the state holds changes what the rows show, and not which there are.
-/

namespace Questionnaire

/-! ## Questions as they are written -/

/-- Whether components of a kind take an answer. -/
def ComponentKind.asks : ComponentKind → Bool
  | .single (.content _) => false
  | _ => true

/-- Whether a component, as it is written, takes an answer. -/
def TypeRegistry.asks (types : TypeRegistry) (d : ComponentDefinition) : Bool :=
  (types.kind? d.type).any ComponentKind.asks

/-- What a row says of its question whatever the state is, with the link to the question's page. -/
structure RowHeading where
  name : String
  label : String
  url : String
deriving DecidableEq

def SummaryRow.heading (row : SummaryRow) : RowHeading :=
  ⟨row.name, row.label, row.url⟩

/-- The heading of the row of a question. -/
def ComponentDefinition.heading (path summaryPath : String) (d : ComponentDefinition) :
    RowHeading :=
  ⟨d.nameText, d.titleText, path ++ "?returnUrl=" ++ summaryPath⟩

/-- The headings of the questions that a page asks, as they are written. -/
def PageDefinition.headings (types : TypeRegistry) (summaryPath : String) (page : PageDefinition) :
    List RowHeading :=
  (page.components.filter types.asks).map (ComponentDefinition.heading page.path summaryPath)

namespace FormDefinition

/-- The pages of a section; `none` stands for no section. -/
def pagesIn (form : FormDefinition) (name : Option String) : List PageDefinition :=
  form.pages.filter (·.sectionName == name)

/-- The headings of the questions of a section's pages. -/
def group (form : FormDefinition) (types : TypeRegistry) (summaryPath : String)
    (s : Option SectionDefinition) : Option SectionDefinition × List RowHeading :=
  (s, (form.pagesIn (s.map SectionDefinition.name)).flatMap (·.headings types summaryPath))

/-- The questions of a definition: those outside sections, and then section by section. -/
def groups (form : FormDefinition) (types : TypeRegistry) (summaryPath : String) :
    List (Option SectionDefinition × List RowHeading) :=
  (none :: form.sections.map some).map (form.group types summaryPath)

end FormDefinition

/-! ## Compiled questions -/

/-- A component keeps its definition, and takes an answer when its kind does. -/
theorem asks_of_compileWith {context : CompileContext}
    {inner? : Option (ComponentDefinition → Except DefinitionError Component)}
    {d : ComponentDefinition} {c : Component} (h : compileWith context inner? d = .ok c) :
    c.definition = d ∧ c.isForm = context.types.asks d := by
  unfold compileWith at h
  unfold TypeRegistry.asks
  split at h
  · exact nomatch h
  · next kind hkind =>
    obtain rfl := eq_of_requireName h
    rw [hkind]
    cases kind <;> exact ⟨rfl, rfl⟩
  · next variant hkind =>
    obtain ⟨list, -, h⟩ := Except.bind_eq_ok_iff.mp h
    obtain ⟨reveals, -, h⟩ := Except.bind_eq_ok_iff.mp h
    obtain rfl := eq_of_requireName h
    rw [hkind]
    exact ⟨rfl, rfl⟩

theorem asks_of_compileOne {context : CompileContext} {d : ComponentDefinition} {c : Component}
    (h : compileOne context d = .ok c) : c.definition = d ∧ c.isForm = context.types.asks d := by
  unfold compileOne at h
  cases hdepth : context.lists.length <;> rw [hdepth] at h <;> exact asks_of_compileWith h

/-- Compiling step by step keeps what is picked, in order. -/
theorem flatMap_filter_of_forall₂ {α β γ : Type} {R : α → β → Prop} {p : α → Bool} {q : β → Bool}
    {f : α → List γ} {g : β → List γ} {written : List α} {compiled : List β}
    (hstep : ∀ a b, R a b → q b = p a ∧ g b = f a) (h : List.Forall₂ R written compiled) :
    (compiled.filter q).flatMap g = (written.filter p).flatMap f := by
  induction h with
  | nil => rfl
  | @cons a b _ _ hfirst _ ih =>
      obtain ⟨hpick, hsame⟩ := hstep a b hfirst
      by_cases hp : p a = true
      · rw [List.filter_cons_of_pos (hpick.trans hp), List.filter_cons_of_pos hp,
          List.flatMap_cons, List.flatMap_cons, hsame, ih]
      · rw [List.filter_cons_of_neg (hpick ▸ hp), List.filter_cons_of_neg hp, ih]

/-- The heading of the row of a component of a page. -/
def Component.heading (path summaryPath : String) (c : Component) : RowHeading :=
  c.definition.heading path summaryPath

theorem headings_of_compileGroup {context : CompileContext}
    {definitions : List ComponentDefinition} {components : List Component}
    (h : compileGroup context definitions = .ok components) (path summaryPath : String) :
    (formComponents components).map (Component.heading path summaryPath) =
      (definitions.filter context.types.asks).map
        (ComponentDefinition.heading path summaryPath) := by
  obtain ⟨compiled, hcompiled, h⟩ := Except.bind_eq_ok_iff.mp h
  obtain rfl := eq_of_asGroup h
  rw [List.map_eq_flatMap, List.map_eq_flatMap]
  refine flatMap_filter_of_forall₂ (fun d c hc => ?_) (Except.mapM_eq_ok_iff.mp hcompiled)
  obtain ⟨rfl, hform⟩ := asks_of_compileOne hc
  exact ⟨hform, rfl⟩

namespace Page

/-- The headings of the rows of a page. -/
def headings (summaryPath : String) (page : Page) : List RowHeading :=
  page.formComponents.map (Component.heading page.path summaryPath)

theorem headings_of_compile {page : Page} {d : PageDefinition} {sections : List SectionDefinition}
    {context : CompileContext} {conditions : Registry} {options : Options}
    (h : Page.compile d sections context conditions options = .ok page) (summaryPath : String) :
    page.sectionName? = d.sectionName ∧
      page.headings summaryPath = d.headings context.types summaryPath := by
  obtain ⟨found, components, routes, hfound, hcomponents, -, rfl⟩ := compile_eq_ok_iff.mp h
  exact ⟨(section_of_findSection hfound).1,
    headings_of_compileGroup hcomponents d.path summaryPath⟩

end Page

namespace Model

section

variable {form : FormDefinition} {options : Options} {types : TypeRegistry} {model : Model}
  (h : compile form options types = .ok model)

include h

theorem options_of_compile : model.options = options := by
  obtain ⟨_, _, -, -, rfl⟩ := compile_eq_ok_iff.mp h
  rfl

/-- The pages that are picked by the names of their sections have the questions of those that are
picked from the pages as they are written. -/
theorem headings_filter (p : Option String → Bool) (summaryPath : String) :
    (model.pages.filter fun page => p page.sectionName?).flatMap (·.headings summaryPath) =
      (form.pages.filter fun d => p d.sectionName).flatMap (·.headings types summaryPath) := by
  obtain ⟨conditions, pages, -, hpages, rfl⟩ := compile_eq_ok_iff.mp h
  rw [form.pages_withYesNo] at hpages
  refine flatMap_filter_of_forall₂ (fun d page hpage => ?_) (Except.mapM_eq_ok_iff.mp hpages)
  obtain ⟨hname, hheadings⟩ := Page.headings_of_compile hpage summaryPath
  exact ⟨by rw [hname], hheadings⟩

theorem headings_pages (summaryPath : String) :
    model.pages.flatMap (·.headings summaryPath) =
      form.pages.flatMap (·.headings types summaryPath) := by
  simpa using headings_filter h (fun _ => true) summaryPath

end

end Model

/-! ## Rows -/

namespace Summary

/-- The rows of a page have the headings of its questions, whatever fails and whatever is stored. -/
theorem heading_pageRows (failures : List Failure) (summaryPath : String) (state : State)
    (page : Page) :
    (pageRows failures summaryPath state page).map SummaryRow.heading =
      page.headings summaryPath := by
  rw [pageRows, List.map_map]
  rfl

/-- The rows of a summary are those of its sections, one after another. -/
theorem rows_eq_flatMap (model : Model) (state : State) :
    (Summary.of model state).rows =
      (sectionsOf model).flatMap fun s => (group (model.failures state) model state s).rows := by
  rw [rows, groups_of, groupsOf]
  induction sectionsOf model with
  | nil => rfl
  | cons s rest ih =>
      rw [List.map_cons, List.flatMap_cons, ← ih]
      cases hrows : (group (model.failures state) model state s).rows with
      | nil => rw [List.filter_cons_of_neg (by simp [hrows]), List.nil_append]
      | cons row more =>
          rw [List.filter_cons_of_pos (by simp [hrows]), List.flatMap_cons, hrows]

section

variable {source : Json} {options : Options} {types : TypeRegistry} {model : Model}
  (hmodel : Model.ofJson source options types = .ok model)

include hmodel

/-- Every page is in one of the sections that the summary goes through, and in no two. -/
theorem perm_pagesIn_sectionsOf :
    ((sectionsOf model).flatMap fun s =>
      pagesIn model.pages (s.map SectionDefinition.name)).Perm model.pages := by
  obtain ⟨form, hform, hcompile⟩ := Model.exists_of_ofJson hmodel
  have hsections : model.definition.sections = form.sections := by
    rw [Model.definition_of_compile hcompile, form.sections_withYesNo]
  have hkeys : ((sectionsOf model).map (Option.map SectionDefinition.name)).Nodup := by
    rw [sectionsOf, hsections]
    refine List.nodup_cons.mpr ⟨by simp, ?_⟩
    simpa [Function.comp_def] using hform.sectionNames.map fun _ _ => Option.some.inj
  have hdeclared : ∀ page ∈ model.pages,
      page.sectionName? ∈ (sectionsOf model).map (Option.map SectionDefinition.name) := by
    intro page hpage
    cases hname : page.sectionName? with
    | none => exact List.mem_cons_self ..
    | some name =>
        obtain ⟨s, hs, rfl⟩ := Model.section_of_ofJson hmodel page hpage name hname
        exact List.mem_map_of_mem (f := Option.map SectionDefinition.name)
          (List.mem_cons_of_mem _ (List.mem_map_of_mem hs))
  simpa only [List.flatMap_map, pagesIn] using perm_flatMap_filter Page.sectionName? hkeys hdeclared

/-- A summary has, up to order, one row for each component of each page that takes answers. -/
theorem rows_perm (state : State) :
    (Summary.of model state).rows.Perm
      (model.pages.flatMap fun page => page.formComponents.map (rowOf model state page)) := by
  have hgroups : (Summary.of model state).rows =
      ((sectionsOf model).flatMap fun s =>
        pagesIn model.pages (s.map SectionDefinition.name)).flatMap
          fun page => page.formComponents.map (rowOf model state page) := by
    rw [rows_eq_flatMap, List.flatMap_assoc]
    rfl
  rw [hgroups]
  exact (perm_pagesIn_sectionsOf hmodel).flatMap_right _

end

end Summary

/-- The headings of the rows of a group. -/
def SummaryGroup.headings (g : SummaryGroup) : Option SectionDefinition × List RowHeading :=
  (g.inSection, g.rows.map SummaryRow.heading)

namespace Summary

theorem headings_group {form : FormDefinition} {options : Options} {types : TypeRegistry}
    {model : Model} (h : Model.compile form options types = .ok model) (state : State)
    (s : Option SectionDefinition) :
    (group (model.failures state) model state s).headings =
      form.group types options.summaryPath s := by
  have hrows : (group (model.failures state) model state s).rows.map SummaryRow.heading =
      (form.pagesIn (s.map SectionDefinition.name)).flatMap
        (·.headings types options.summaryPath) := by
    rw [group, List.map_flatMap, Model.options_of_compile h]
    simp only [heading_pageRows]
    exact Model.headings_filter h (· == s.map SectionDefinition.name) options.summaryPath
  rw [SummaryGroup.headings, hrows]
  rfl

/-- A summary lists every question once. Whatever the state, its groups are those of the written
definition that have questions: the questions of the pages outside sections, and then, for each
declared section, those of its pages, all in the order in which they are written. So the rows have
the headings of all questions of all pages, and they are the rows of the components of the compiled
pages, none left out and none repeated. -/
theorem rows_of_ofJson {source : Json} {options : Options} {types : TypeRegistry} {model : Model}
    (hmodel : Model.ofJson source options types = .ok model) :
    ∃ form, FormDefinition.ofJson? source = some form ∧ ∀ state : State,
      (Summary.of model state).groups.map SummaryGroup.headings =
          (form.groups types options.summaryPath).filter (!·.2.isEmpty) ∧
        (Summary.of model state).rows.map SummaryRow.heading =
          (form.groups types options.summaryPath).flatMap Prod.snd ∧
        ((Summary.of model state).rows.map SummaryRow.heading).Perm
          (form.pages.flatMap (·.headings types options.summaryPath)) ∧
        (Summary.of model state).rows.Perm
          (model.pages.flatMap fun page => page.formComponents.map (rowOf model state page)) := by
  have hissues := Model.issues_of_ofJson hmodel
  obtain ⟨form, hread, -⟩ := FormDefinition.exists_of_issues hissues
  have hcompile := (Model.ofJson_eq_compile hissues hread options types).symm.trans hmodel
  have hsections : sectionsOf model = none :: form.sections.map some := by
    rw [sectionsOf, Model.definition_of_compile hcompile, form.sections_withYesNo]
  refine ⟨form, hread, fun state => ⟨?_, ?_, ?_, rows_perm hmodel state⟩⟩
  · have hempty : (fun g : SummaryGroup => !g.rows.isEmpty) =
        (fun g : Option SectionDefinition × List RowHeading => !g.2.isEmpty) ∘
          SummaryGroup.headings := by
      funext g
      simp [SummaryGroup.headings]
    rw [groups_of, groupsOf, hempty, ← List.filter_map, List.map_map, hsections]
    congr 1
    exact List.map_congr_left fun s _ => headings_group hcompile state s
  · rw [rows_eq_flatMap, List.map_flatMap, hsections, FormDefinition.groups, List.flatMap_map]
    exact List.flatMap_congr fun s _ => congrArg Prod.snd (headings_group hcompile state s)
  · rw [← Model.headings_pages hcompile]
    have hpages : (model.pages.flatMap fun page =>
          page.formComponents.map (rowOf model state page)).map SummaryRow.heading =
        model.pages.flatMap (·.headings options.summaryPath) := by
      rw [List.map_flatMap, ← Model.options_of_compile hcompile]
      exact List.flatMap_congr fun page _ => heading_pageRows (model.failures state) _ state page
    exact hpages ▸ (rows_perm hmodel state).map SummaryRow.heading

/-- The name outside sections comes first, and the note and the consent of the stay after it, although
the pages stand in another order and the state holds no object for the stay. -/
theorem rows_of_ofJson_stay :
    Model.ofJson staySource {} .builtin = .ok (compiled staySource) ∧
      (Summary.of (compiled staySource) [("stay", .null)]).groups.map SummaryGroup.headings =
        [(none, [⟨"name", "Name", "/name?returnUrl=/summary"⟩]),
          (some ⟨"stay", "Stay"⟩,
            [⟨"note", "Note", "/note?returnUrl=/summary"⟩,
              ⟨"consent", "Consent", "/consent?returnUrl=/summary"⟩])] ∧
      ∃ form, FormDefinition.ofJson? staySource = some form ∧
        ((Summary.of (compiled staySource) [("stay", .null)]).rows.map SummaryRow.heading).Perm
          (form.pages.flatMap (·.headings .builtin "/summary")) := by
  have hmodel : Model.ofJson staySource {} .builtin = .ok (compiled staySource) := by
    with_unfolding_all rfl
  obtain ⟨form, hread, hrows⟩ := rows_of_ofJson hmodel
  exact ⟨hmodel, by decide +kernel, form, hread, (hrows [("stay", .null)]).2.2.1⟩

end Summary

end Questionnaire
