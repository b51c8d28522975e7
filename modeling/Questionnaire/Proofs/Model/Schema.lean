import Questionnaire.Model.Basic
import Questionnaire.Proofs.Page.Consistency

/-!
# The rule for the whole state

The rule for the whole state collects the rules of pages one after another: those of the pages
outside any section at the top, and those of each section's pages in an object of the section's
name. State whose answers are complete page by page passes it (`validateState_of_complete`).
-/

namespace Questionnaire

/-! ## The pages of a section -/

/-- The rules by key of the answers of some pages. -/
def pagesKeys (pages : List Page) : Keys :=
  pages.foldl (fun keys page => keys.extend (stateKeys page.components)) []

theorem pagesSchema_eq (pages : List Page) :
    pagesSchema pages = .object (pagesKeys pages) false { required := true } := by
  have hfold : ∀ keys : Keys,
      pages.foldl (fun rule page => Rule.concat rule page.stateSchema)
          (Rule.object keys false { required := true }) =
        Rule.object
          (pages.foldl (fun keys page => Keys.extend keys (stateKeys page.components)) keys) false
          { required := true } := by
    induction pages with
    | nil => exact fun _ => rfl
    | cons page rest ih => exact fun keys => ih (keys.extend (stateKeys page.components))
  exact hfold []

theorem nodup_names_pagesKeys (pages : List Page) : (pagesKeys pages).names.Nodup := by
  have hfold : ∀ keys : Keys, keys.names.Nodup →
      (pages.foldl (fun keys page => keys.extend (stateKeys page.components)) keys).names.Nodup := by
    induction pages with
    | nil => exact fun _ h => h
    | cons page rest ih => exact fun keys h => ih _ (Keys.nodup_names_extend h _)
  exact hfold [] List.nodup_nil

theorem get?_pagesKeys (pages : List Page) (key : String) :
    (pagesKeys pages).get? key =
      Keys.last? (pages.flatMap fun page => (questions page.components).flatMap Side.state.entries)
        key := by
  have hfold : ∀ keys : Keys,
      (pages.foldl (fun keys page => keys.extend (stateKeys page.components)) keys).get? key =
        (Keys.last? (pages.flatMap fun page =>
          (questions page.components).flatMap Side.state.entries) key).or (keys.get? key) := by
    induction pages with
    | nil => exact fun _ => rfl
    | cons page rest ih =>
        intro keys
        have hpage : Keys.last? (stateKeys page.components) key =
            Keys.last? ((questions page.components).flatMap Side.state.entries) key := by
          rw [← Side.get?_groupKeys, ← Side.groupKeys_state,
            Keys.last?_of_nodup (Side.state.nodup_groupKeys page.components)]
        rw [List.foldl_cons, ih, Keys.get?_extend, List.flatMap_cons, Keys.last?_append,
          Option.or_assoc, hpage]
  rw [pagesKeys, hfold, Keys.get?_nil, Option.or_none]

/-- The names of the stored answers of some pages, each as often as it is contributed. -/
def pagesNames (pages : List Page) : List String :=
  pages.flatMap fun page => stateNames page.components

theorem names_entries_state (components : List Component) :
    Keys.names ((questions components).flatMap Side.state.entries) = stateNames components := by
  rw [Keys.names, List.map_flatMap, stateNames, List.map_eq_flatMap]
  refine List.flatMap_congr fun q hq => ?_
  rw [← names_state hq, Side.names, Side.entries, List.map_map]
  rfl

theorem mem_names_pagesKeys_iff {pages : List Page} {key : String} :
    key ∈ (pagesKeys pages).names ↔ key ∈ pagesNames pages := by
  rw [← Keys.has_iff_mem_names, ← Keys.isSome_get?, get?_pagesKeys, Keys.last?, Keys.isSome_get?,
    Keys.has_iff_mem_names]
  have hnames : Keys.names (pages.flatMap fun page =>
      (questions page.components).flatMap Side.state.entries) = pagesNames pages := by
    rw [Keys.names, List.map_flatMap, pagesNames]
    exact List.flatMap_congr fun page _ => names_entries_state page.components
  rw [← hnames, Keys.names, Keys.names, List.map_reverse, List.mem_reverse]

/-- Every rule by key is that of a question of one of the pages. -/
theorem rule_of_mem_pagesKeys {pages : List Page} {entry : String × Rule}
    (hentry : entry ∈ pagesKeys pages) :
    ∃ page ∈ pages, ∃ q ∈ questions page.components,
      entry = (q.name, Side.state.behind q.behind q.field.ownState) := by
  have hget := Keys.get?_of_mem (nodup_names_pagesKeys pages) hentry
  rw [get?_pagesKeys] at hget
  have hmem := List.mem_reverse.mp (Keys.mem_of_get? hget)
  obtain ⟨page, hpage, hmem⟩ := List.mem_flatMap.mp hmem
  obtain ⟨q, hq, hmem⟩ := List.mem_flatMap.mp hmem
  refine ⟨page, hpage, q, hq, ?_⟩
  rw [Side.entries, Component.own_state (isForm_of_mem_questions _ hq)] at hmem
  exact List.mem_singleton.mp hmem

theorem mem_pagesIn_iff {pages : List Page} {name : Option String} {page : Page} :
    page ∈ pagesIn pages name ↔ page ∈ pages ∧ page.sectionName? = name := by
  rw [pagesIn, List.mem_filter, beq_iff_eq]

/-! ## The parts of sections -/

/-- Rules by key with that of a section's part, if the section has pages. -/
def withSection (pages : List Page) (keys : Keys) (s : SectionDefinition) : Keys :=
  if (pagesIn pages (some s.name)).isEmpty then keys
  else keys.insert s.name ((pagesSchema (pagesIn pages (some s.name))).labelled s.title)

/-- Rules by key with those of the sections that have pages. -/
def sectionsKeys (pages : List Page) (keys : Keys) (sections : List SectionDefinition) : Keys :=
  sections.foldl (withSection pages) keys

theorem modelSchema_eq (sections : List SectionDefinition) (pages : List Page) :
    modelSchema sections pages =
      .object (sectionsKeys pages (pagesKeys (pagesIn pages none)) sections) false
        { required := true } := by
  rw [modelSchema, pagesSchema_eq]
  generalize pagesKeys (pagesIn pages none) = keys
  induction sections generalizing keys with
  | nil => rfl
  | cons s rest ih =>
      rw [List.foldl_cons, sectionsKeys, List.foldl_cons, addSection, withSection]
      split
      · exact ih keys
      · exact ih _

/-- A rule of the whole state is one of the rules at the top, or that of a section's part. -/
theorem mem_sectionsKeys {pages : List Page} {sections : List SectionDefinition} {keys : Keys}
    {entry : String × Rule} (h : entry ∈ sectionsKeys pages keys sections) :
    entry ∈ keys ∨ ∃ s ∈ sections, pagesIn pages (some s.name) ≠ [] ∧
      entry = (s.name, (pagesSchema (pagesIn pages (some s.name))).labelled s.title) := by
  induction sections generalizing keys with
  | nil => exact Or.inl h
  | cons s rest ih =>
      rcases ih h with h | ⟨s', hs', h⟩
      · rw [withSection] at h
        split at h
        · exact Or.inl h
        · next hpages =>
          rcases Keys.mem_insert h with h | h
          · refine Or.inr ⟨s, List.mem_cons_self .., ?_, h⟩
            rwa [List.isEmpty_iff] at hpages
          · exact Or.inl h
      · exact Or.inr ⟨s', List.mem_cons_of_mem _ hs', h⟩

theorem mem_names_sectionsKeys {pages : List Page} {key : String} :
    ∀ {sections : List SectionDefinition} {keys : Keys},
    (key ∈ keys.names ∨ ∃ s ∈ sections, s.name = key ∧ pagesIn pages (some key) ≠ []) →
    key ∈ (sectionsKeys pages keys sections).names := by
  intro sections
  induction sections with
  | nil =>
      rintro keys (h | ⟨s, hs, -⟩)
      · exact h
      · exact nomatch hs
  | cons s rest ih =>
      intro keys h
      refine ih ?_
      rw [withSection]
      have hinsert : ∀ {rule : Rule}, key ∈ keys.names → key ∈ (keys.insert s.name rule).names := by
        intro rule hkey
        rw [Keys.names_insert]
        split
        · exact hkey
        · exact List.mem_append_left _ hkey
      rcases h with hkey | ⟨s', hs', hname, hpages⟩
      · left
        split
        · exact hkey
        · exact hinsert hkey
      · rcases List.mem_cons.mp hs' with rfl | hs'
        · left
          have hsome : ¬ (pagesIn pages (some s'.name)).isEmpty = true := by
            rw [hname, List.isEmpty_iff]
            exact hpages
          rw [if_neg hsome, Keys.names_insert, hname]
          split
          · assumption
          · exact List.mem_append_right _ (List.mem_singleton_self _)
        · exact Or.inr ⟨s', hs', hname, hpages⟩

/-! ## Complete state -/

theorem get?_eq_obj {state stored : State} {name : String}
    (h : (state.get? name).bind Json.obj? = some stored) : state.get? name = some (.obj stored) := by
  obtain ⟨value, hvalue, hobj⟩ := Option.bind_eq_some_iff.mp h
  cases value with
  | obj fields => rw [hvalue, Option.some.inj hobj]
  | _ => exact nomatch hobj

/-- State whose answers are complete page by page, and that holds nothing else, passes the rule for
the whole state. -/
theorem Model.validateState_of_complete {model : Model} {state : State}
    (hschema : model.schema = modelSchema model.definition.sections model.pages)
    (hsections : ∀ page ∈ model.pages, ∀ name, page.sectionName? = some name →
      ∃ s ∈ model.definition.sections, s.name = name)
    (hpages : ∀ page ∈ model.pages, page.WellFormed)
    (hcomplete : ∀ page ∈ model.pages, ∃ stored, page.pageState? state = some stored ∧
      ∀ q ∈ questions page.components, q.Complete stored)
    (htop : ∀ member ∈ state, member.1 ∈ pagesNames (pagesIn model.pages none) ∨
      ∃ page ∈ model.pages, page.sectionName? = some member.1)
    (hinside : ∀ page ∈ model.pages, ∀ name, page.sectionName? = some name →
      ∀ stored, page.pageState? state = some stored →
      ∀ member ∈ stored, member.1 ∈ pagesNames (pagesIn model.pages (some name))) :
    ∃ value, model.validateState state = .ok value := by
  have hpart : ∀ (name : Option String) (stored : State) {options : ValidationOptions},
      (∀ page ∈ pagesIn model.pages name, page.pageState? state = some stored) →
      ∀ entry ∈ pagesKeys (pagesIn model.pages name),
        (entry.2.check options entry.1 (some stored) (stored.get? entry.1)).failures = [] := by
    intro name stored options hstored entry hentry
    obtain ⟨page, hpage, q, hq, rfl⟩ := rule_of_mem_pagesKeys hentry
    have hmem := (mem_pagesIn_iff.mp hpage).1
    obtain ⟨stored', hstored', hq'⟩ := hcomplete page hmem
    rw [hstored page hpage] at hstored'
    obtain rfl := Option.some.inj hstored'
    rw [(hq' q hq).check_ownState ((hpages page hmem).builtin q hq) ((hpages page hmem).allow q hq)]
  have haccepts : Rule.Accepts ⟨model.options.allowUnknownStateKeys⟩
      (sectionsKeys model.pages (pagesKeys (pagesIn model.pages none)) model.definition.sections)
      state := by
    constructor
    · intro entry hentry
      rcases mem_sectionsKeys hentry with hentry | ⟨s, hs, hne, rfl⟩
      · refine hpart none state ?_ entry hentry
        intro page hpage
        rw [Page.pageState?, (mem_pagesIn_iff.mp hpage).2]
      · obtain ⟨first, hfirst⟩ := List.exists_mem_of_ne_nil _ hne
        obtain ⟨hmem, hname⟩ := mem_pagesIn_iff.mp hfirst
        obtain ⟨stored, hstored, -⟩ := hcomplete first hmem
        -- The pages of a section share one part of the state.
        have hsame : ∀ page ∈ pagesIn model.pages (some s.name),
            page.pageState? state = some stored := by
          intro page hpage
          rw [← hstored, Page.pageState?, Page.pageState?, (mem_pagesIn_iff.mp hpage).2, hname]
        have hobject : state.get? s.name = some (.obj stored) := by
          rw [Page.pageState?, hname] at hstored
          exact get?_eq_obj hstored
        have hstoredAccepts : Rule.Accepts ⟨model.options.allowUnknownStateKeys⟩
            (pagesKeys (pagesIn model.pages (some s.name))) stored := by
          refine ⟨hpart _ _ hsame, fun member hmember => ?_⟩
          rw [Keys.has_iff_mem_names, mem_names_pagesKeys_iff]
          exact hinside first hmem s.name hname stored hstored member hmember
        show (((pagesSchema (pagesIn model.pages (some s.name))).labelled s.title).check _ s.name _
          (state.get? s.name)).failures = []
        rw [hobject, pagesSchema_eq]
        exact congrArg Checked.failures
          (Rule.check_object_of_accepts rfl rfl hstoredAccepts false s.name (some state))
    · intro member hmember
      rw [Keys.has_iff_mem_names]
      refine mem_names_sectionsKeys ?_
      rcases htop member hmember with hname | ⟨page, hpage, hname⟩
      · exact Or.inl (mem_names_pagesKeys_iff.mpr hname)
      · obtain ⟨s, hs, hsame⟩ := hsections page hpage _ hname
        exact Or.inr ⟨s, hs, hsame, List.ne_nil_of_mem (mem_pagesIn_iff.mpr ⟨hpage, hname⟩)⟩
  refine ⟨.obj (Rule.checkKeys ⟨model.options.allowUnknownStateKeys⟩ (sectionsKeys model.pages
    (pagesKeys (pagesIn model.pages none)) model.definition.sections) state).1, ?_⟩
  rw [Model.validateState, hschema, modelSchema_eq, Rule.validate]
  rw [Rule.check_object_of_accepts rfl rfl haccepts]
  rfl

end Questionnaire
