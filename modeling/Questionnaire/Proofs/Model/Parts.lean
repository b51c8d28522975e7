import Questionnaire.Model.Summary
import Questionnaire.Proofs.Model.Run
import Questionnaire.Proofs.Rule.Failures

/-!
# The failures of the whole state, part by part

What is wrong with the whole state is what the rules at its top find wrong, what the rules of each
section's part find wrong, and the members without a rule (`Model.failures_eq`). While no name is
contributed twice, the rules by key of some pages are those of each page one after another
(`pagesKeys_eq_flatMap`), and the rules of the whole state are those of the pages outside sections
followed by one for each section (`sectionsKeys_eq_append`).
-/

namespace Questionnaire

/-! ## Failures of pages and of questionnaires -/

/-- What a page finds wrong with its part of the state. -/
def Page.failures (page : Page) (pageState : State) : List Failure :=
  match page.validateState pageState with
  | .ok _ => []
  | .error summary => summary.failures

/-- What is wrong with the whole state. -/
def Model.failures (model : Model) (state : State) : List Failure :=
  match model.validateState state with
  | .ok _ => []
  | .error failures => failures

/-- The rules of the whole state, by key. -/
def Model.rules (model : Model) : Keys :=
  sectionsKeys model.pages (pagesKeys (pagesIn model.pages none)) model.definition.sections

/-- The settings with which the whole state is checked. -/
def Model.settings (model : Model) : ValidationOptions :=
  ⟨model.options.allowUnknownStateKeys⟩

theorem Page.failures_eq (page : Page) (pageState : State) :
    page.failures pageState =
      (Rule.checkKeys {} (stateKeys page.components) pageState).2 ++
        (Rule.checkUnknown false (stateKeys page.components) pageState).2 := by
  unfold Page.failures
  cases h : page.validateState pageState with
  | ok answers =>
      obtain ⟨haccepts, -⟩ := Page.validate_eq_ok_iff.mp h
      rw [Rule.checkKeys_failures_eq_nil_iff.mpr haccepts.passes,
        Rule.checkUnknown_failures_eq_nil_iff.mpr (.inr haccepts.known)]
      rfl
  | error summary =>
      obtain ⟨-, hfailures⟩ := Page.validate_eq_error_iff.mp h
      exact (Rule.validate_ofKeys_eq_error_iff.mp hfailures).2

theorem Model.failures_eq {model : Model}
    (hschema : model.schema = modelSchema model.definition.sections model.pages) (state : State) :
    model.failures state =
      (Rule.checkKeys model.settings model.rules state).2 ++
        (Rule.checkUnknown model.settings.allowUnknown model.rules state).2 := by
  unfold Model.failures Model.validateState Rule.validate
  rw [hschema, modelSchema_eq, Rule.check_object rfl rfl]
  dsimp only [Bool.false_or]
  split
  · next value heq =>
    split at heq
    · next hnone => exact (List.isEmpty_iff.mp hnone).symm
    · exact nomatch heq
  · next failures heq =>
    split at heq
    · exact nomatch heq
    · exact (Except.error.inj heq).symm

/-! ## Rules of pages -/

theorem pagesKeys_eq_ofList (pages : List Page) :
    pagesKeys pages = Keys.ofList (pages.flatMap fun page => stateKeys page.components) := by
  have hfold : ∀ keys : Keys,
      pages.foldl (fun keys page => keys.extend (stateKeys page.components)) keys =
        keys.extend (pages.flatMap fun page => stateKeys page.components) := by
    induction pages with
    | nil => exact fun _ => rfl
    | cons page rest ih =>
        intro keys
        rw [List.foldl_cons, ih, List.flatMap_cons, Keys.extend_append]
  exact hfold []

theorem nodup_names_stateKeys (components : List Component) :
    (stateKeys components).names.Nodup := by
  rw [← Side.groupKeys_state]
  exact Side.state.nodup_groupKeys components

theorem pagesKeys_singleton (page : Page) : pagesKeys [page] = stateKeys page.components := by
  rw [pagesKeys_eq_ofList, List.flatMap_singleton,
    Keys.ofList_of_nodup (nodup_names_stateKeys page.components)]

theorem mem_names_stateKeys_iff {page : Page} {key : String} :
    key ∈ (stateKeys page.components).names ↔ key ∈ stateNames page.components := by
  rw [← pagesKeys_singleton, mem_names_pagesKeys_iff, pagesNames, List.flatMap_singleton]

/-- Every rule of a page is that of one of its questions. -/
theorem rule_of_mem_stateKeys {page : Page} {entry : String × Rule}
    (hentry : entry ∈ stateKeys page.components) :
    ∃ q ∈ questions page.components,
      entry = (q.name, Side.state.behind q.behind q.field.ownState) := by
  rw [← pagesKeys_singleton] at hentry
  obtain ⟨other, hother, h⟩ := rule_of_mem_pagesKeys hentry
  rwa [List.mem_singleton.mp hother] at h

/-- The rules of pages whose names are their own stand one after another. -/
theorem pagesKeys_eq_flatMap {pages : List Page} (h : (pagesNames pages).Nodup) :
    pagesKeys pages = pages.flatMap fun page => stateKeys page.components := by
  rw [pagesKeys_eq_ofList]
  refine Keys.ofList_of_nodup ?_
  obtain ⟨-, hpairs⟩ := List.nodup_flatMap.mp h
  rw [Keys.names, List.map_flatMap]
  refine List.nodup_flatMap.mpr ⟨fun page _ => nodup_names_stateKeys page.components, ?_⟩
  refine hpairs.imp fun hdisjoint key hkey hkey' => ?_
  exact hdisjoint (mem_names_stateKeys_iff.mp hkey) (mem_names_stateKeys_iff.mp hkey')

/-! ## Rules of sections -/

/-- The rules of sections follow those at the top that have other names. -/
theorem sectionsKeys_eq_append (pages : List Page) {sections : List SectionDefinition} {keys : Keys}
    (h : ∀ s ∈ sections, s.name ∉ keys.names) :
    sectionsKeys pages keys sections = keys ++ sectionsKeys pages [] sections := by
  suffices hfold : ∀ more : Keys,
      sectionsKeys pages (keys ++ more) sections = keys ++ sectionsKeys pages more sections by
    simpa using hfold []
  induction sections with
  | nil => exact fun _ => rfl
  | cons s rest ih =>
      intro more
      have hstep : withSection pages (keys ++ more) s = keys ++ withSection pages more s := by
        unfold withSection
        split
        · rfl
        · exact Keys.insert_append (h s (List.mem_cons_self ..)) _ more
      rw [sectionsKeys, List.foldl_cons, hstep]
      exact ih (fun other hother => h other (List.mem_cons_of_mem _ hother)) _

/-- A section that has pages has the rule of its part, whatever else has its name. -/
theorem get?_sectionsKeys {pages : List Page} {sections : List SectionDefinition} (keys : Keys)
    {name : String} (hsection : ∃ s ∈ sections, s.name = name)
    (hpages : pagesIn pages (some name) ≠ []) :
    ∃ title, (sectionsKeys pages keys sections).get? name =
      some ((pagesSchema (pagesIn pages (some name))).labelled title) := by
  -- Once the section has its rule, only a section of its name replaces it.
  suffices hfold : ∀ keys : Keys,
      ((∃ title, keys.get? name =
          some ((pagesSchema (pagesIn pages (some name))).labelled title)) ∨
        ∃ s ∈ sections, s.name = name) →
      ∃ title, (sectionsKeys pages keys sections).get? name =
        some ((pagesSchema (pagesIn pages (some name))).labelled title) by
    exact hfold keys (.inr hsection)
  clear hsection
  induction sections with
  | nil => exact fun keys h => h.resolve_right fun ⟨_, hs, _⟩ => nomatch hs
  | cons s rest ih =>
      intro keys h
      refine ih (withSection pages keys s) ?_
      by_cases hname : s.name = name
      · left
        subst hname
        have hsome : ¬ (pagesIn pages (some s.name)).isEmpty = true := by
          rwa [List.isEmpty_iff]
        exact ⟨s.title, by rw [withSection, if_neg hsome, Keys.get?_insert, if_pos rfl]⟩
      · rcases h with ⟨title, h⟩ | ⟨s', hs', hsame⟩
        · left
          refine ⟨title, ?_⟩
          unfold withSection
          split
          · exact h
          · rw [Keys.get?_insert, if_neg hname, h]
        · rcases List.mem_cons.mp hs' with rfl | hs'
          · exact absurd hsame hname
          · exact .inr ⟨s', hs', hsame⟩

theorem nodup_names_sectionsKeys {pages : List Page} {sections : List SectionDefinition}
    {keys : Keys} (h : keys.names.Nodup) : (sectionsKeys pages keys sections).names.Nodup := by
  induction sections generalizing keys with
  | nil => exact h
  | cons s rest ih =>
      refine ih ?_
      unfold withSection
      split
      · exact h
      · exact Keys.nodup_names_insert h ..

theorem Model.nodup_names_rules (model : Model) : model.rules.names.Nodup :=
  nodup_names_sectionsKeys (nodup_names_pagesKeys _)

/-- The rule of a section's part is the rule of the objects that its pages share, with a label. -/
theorem labelled_pagesSchema (pages : List Page) (title : String) :
    (pagesSchema pages).labelled title =
      .object (pagesKeys pages) false { required := true, label := some title } := by
  rw [pagesSchema_eq]
  rfl

/-! ## Compiled questionnaires -/

namespace Model

section

variable {source : Json} {options : Options} {types : TypeRegistry} {model : Model}
  (hmodel : Model.ofJson source options types = .ok model)

include hmodel

theorem section_of_ofJson : ∀ page ∈ model.pages, ∀ name, page.sectionName? = some name →
    ∃ s ∈ model.definition.sections, s.name = name := by
  intro page hpage name hname
  obtain ⟨definition, location, hcompile⟩ := (page_of_compile hmodel).2 page hpage
  exact Page.section_of_compile hcompile hname

theorem isBuiltinField_of_ofJson (hbuiltin : types.IsBuiltin) {page : Page}
    (hpage : page ∈ model.pages) {q : Question} (hq : q ∈ questions page.components) :
    q.field.IsBuiltinField = true := by
  obtain ⟨definition, location, hcompile⟩ := (page_of_compile hmodel).2 page hpage
  exact isBuiltinField_of_compileGroup hbuiltin (Page.compileGroup_of_compile hcompile) _ hq

end

end Model

/-! ### A stay -/

/-- A name outside sections, and two pages of one section, as they are written. -/
def staySource : Json :=
  .obj
    [("lists", .arr
        [answersSource "consent" [fieldSource "TextField" "reason" "Reason" []] []]),
      ("pages", .arr
        [.obj [("components", .arr [fieldSource "TextField" "note" "Note" []]),
            ("path", .str "/note"), ("section", .str "stay")],
          .obj [("components", .arr [fieldSource "TextField" "name" "Name" []]),
            ("path", .str "/name")],
          .obj
            [("components", .arr
                [fieldSource "CheckboxesField" "consent" "Consent" [("list", .str "consent")]]),
              ("path", .str "/consent"), ("section", .str "stay")]]),
      ("sections", .arr [.obj [("name", .str "stay"), ("title", .str "Stay")]])]

/-- No name, a refusal without a reason, a note that is no text, and a member without a rule. -/
def stayState : State :=
  [("name", .str ""),
    ("stay", .obj
      [("consent", .arr [.bool false]), ("hall", .str "East"), ("note", .bool true)])]

end Questionnaire
