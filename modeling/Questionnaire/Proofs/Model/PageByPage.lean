import Questionnaire.Proofs.Model.Parts

/-!
# The whole state, page by page

Checking the whole state comes to checking what each page stores on its own. Up to order, and apart
from members without a rule, the failures are those that the pages find in their own answers, under
the names of their sections (`Model.ruleFailures_perm`). Members without a rule are apart because the
whole state may let them through where a page does not (`exists_failures_not_perm`).
-/

namespace Questionnaire

/-! ## Grouping -/

/-- Items that are grouped by key are the items, in another order. -/
theorem perm_flatMap_filter {α κ : Type} [BEq κ] [LawfulBEq κ] (key : α → κ) {keys : List κ}
    (hkeys : keys.Nodup) {items : List α} (h : ∀ item ∈ items, key item ∈ keys) :
    (keys.flatMap fun k => items.filter (key · == k)).Perm items := by
  induction keys generalizing items with
  | nil =>
      obtain rfl := List.eq_nil_iff_forall_not_mem.mpr fun item hitem => nomatch h item hitem
      rfl
  | cons k rest ih =>
      obtain ⟨hk, hrest⟩ := List.nodup_cons.mp hkeys
      -- The later groups have nothing of the first, so they group what the first leaves.
      have hgroups : (rest.flatMap fun other => items.filter (key · == other)) =
          rest.flatMap fun other => (items.filter (!key · == k)).filter (key · == other) := by
        refine List.flatMap_congr fun other hother => ?_
        rw [List.filter_filter]
        refine List.filter_congr fun item _ => ?_
        by_cases heq : key item = other
        · have hne : other ≠ k := fun hother' => hk (hother' ▸ hother)
          simp [heq, hne]
        · simp [heq]
      have hleft : ∀ item ∈ items.filter (!key · == k), key item ∈ rest := by
        intro item hitem
        obtain ⟨hmem, hne⟩ := List.mem_filter.mp hitem
        exact (List.mem_cons.mp (h item hmem)).resolve_left (by simpa using hne)
      rw [List.flatMap_cons, hgroups]
      exact ((ih hrest hleft).append_left _).trans (List.filter_append_perm (key · == k) items)

/-! ## What a page finds in its own answers -/

theorem Fields.get?_filter_key (fields : Fields) (p : String → Bool) (key : String) :
    Fields.get? (fields.filter fun member => p member.1) key =
      if p key then fields.get? key else none := by
  induction fields with
  | nil => simp
  | cons member rest ih =>
      obtain ⟨k, value⟩ := member
      by_cases hk : k = key
      · subst hk
        by_cases hp : p k = true <;> simp [hp, Fields.get?_cons, ih]
      · by_cases hp : p k = true <;> simp [hp, Fields.get?_cons, hk, ih]

namespace Page

/-- The members of a page's part of the state for which the page has a rule. -/
def slice (page : Page) (state : State) : State :=
  (page.stored state).filter fun member => (stateKeys page.components).has member.1

theorem get?_slice {page : Page} {key : String} (hkey : key ∈ stateNames page.components)
    (state : State) : (page.slice state).get? key = (page.stored state).get? key := by
  rw [← mem_names_stateKeys_iff, ← Keys.has_iff_mem_names] at hkey
  rw [slice, Fields.get?_filter_key, if_pos hkey]

/-- A failure in a page's part of the state, as a failure of the whole state. -/
def inState (page : Page) (failure : Failure) : Failure :=
  match page.sectionName? with
  | some name => failure.under name
  | none => failure

/-- What the rules of a page find wrong with its own answers, as failures of the whole state. -/
def ruleFailures (page : Page) (state : State) : List Failure :=
  (Questionnaire.ruleFailures (page.failures (page.slice state))).map page.inState

/-- The rules of a page find the same in its own answers as beside those of other pages. -/
theorem ruleFailures_slice {page : Page}
    (hbuiltin : ∀ q ∈ questions page.components, q.field.IsBuiltinField = true)
    (options : ValidationOptions) (state : State) :
    Questionnaire.ruleFailures (page.failures (page.slice state)) =
      Questionnaire.ruleFailures
        (Rule.checkKeys options (stateKeys page.components) (page.stored state)).2 := by
  rw [failures_eq, ruleFailures_append, Rule.ruleFailures_checkUnknown, List.append_nil,
    Rule.ruleFailures_checkKeys, Rule.ruleFailures_checkKeys]
  refine List.flatMap_congr fun entry hentry => ?_
  obtain ⟨q, hq, rfl⟩ := rule_of_mem_stateKeys hentry
  have hchooser : ∀ reveal ∈ q.behind.head?,
      (page.slice state).get? reveal.chooser = (page.stored state).get? reveal.chooser := by
    intro reveal hreveal
    exact get?_slice (chooser_mem_stateNames hq hreveal) state
  rw [get?_slice (List.mem_map_of_mem hq),
    ruleFailures_check_behind (isField_ownState (hbuiltin q hq)) Side.state {} options q.name
      hchooser]

end Page

/-- The rules of pages that share a part of the state find what each of the pages finds. -/
theorem ruleFailures_pagesKeys {pages : List Page} {part state : State}
    (hnames : (pagesNames pages).Nodup)
    (hbuiltin : ∀ page ∈ pages, ∀ q ∈ questions page.components, q.field.IsBuiltinField = true)
    (hpart : ∀ page ∈ pages, page.stored state = part) (options : ValidationOptions) :
    ruleFailures (Rule.checkKeys options (pagesKeys pages) part).2 =
      pages.flatMap fun page => ruleFailures (page.failures (page.slice state)) := by
  rw [Rule.ruleFailures_checkKeys, pagesKeys_eq_flatMap hnames, List.flatMap_assoc]
  refine List.flatMap_congr fun page hpage => ?_
  rw [page.ruleFailures_slice (hbuiltin page hpage) options, hpart page hpage,
    Rule.ruleFailures_checkKeys]

theorem ruleFailures_section {pages : List Page} {name : String} {state part : State}
    (hpart : state.get? name = some (.obj part)) (title : String) (options : ValidationOptions) :
    ruleFailures (((pagesSchema pages).labelled title).check options name (some state)
        (state.get? name)).failures =
      ruleFailures (Rule.checkKeys options (pagesKeys pages) part).2 := by
  rw [hpart, labelled_pagesSchema, Rule.check_object rfl rfl, ruleFailures_append,
    Rule.ruleFailures_checkUnknown, List.append_nil]

namespace Model

/-- The parts of the state in which pages answer: the top, and the sections that have pages. -/
def parts (model : Model) : List (Option String) :=
  none :: (sectionsKeys model.pages [] model.definition.sections).names.map some

theorem nodup_parts (model : Model) : model.parts.Nodup := by
  have hnil : (Keys.names []).Nodup := List.nodup_nil
  refine List.nodup_cons.mpr ⟨by simp, ?_⟩
  exact (nodup_names_sectionsKeys hnil).map fun _ _ => Option.some.inj

theorem mem_parts {model : Model}
    (hsections : ∀ page ∈ model.pages, ∀ name, page.sectionName? = some name →
      ∃ s ∈ model.definition.sections, s.name = name) {page : Page} (hpage : page ∈ model.pages) :
    page.sectionName? ∈ model.parts := by
  cases hname : page.sectionName? with
  | none => exact List.mem_cons_self ..
  | some name =>
      obtain ⟨s, hs, hsame⟩ := hsections page hpage name hname
      refine List.mem_cons_of_mem _ (List.mem_map_of_mem (mem_names_sectionsKeys (.inr ?_)))
      exact ⟨s, hs, hsame, List.ne_nil_of_mem (mem_pagesIn_iff.mpr ⟨hpage, hname⟩)⟩

section

variable {model : Model} (hbuiltin : ∀ page ∈ model.pages, ∀ q ∈ questions page.components,
    q.field.IsBuiltinField = true)
  (hnames : ∀ name, (pagesNames (pagesIn model.pages name)).Nodup) (state : State)

include hbuiltin hnames

/-- The pages that share a part of the state find what its rules find. -/
theorem ruleFailures_pagesIn {name : Option String} {part : State}
    (hpart : ∀ page ∈ pagesIn model.pages name, page.stored state = part)
    (options : ValidationOptions) :
    ruleFailures (Rule.checkKeys options (pagesKeys (pagesIn model.pages name)) part).2 =
      (pagesIn model.pages name).flatMap fun page =>
        ruleFailures (page.failures (page.slice state)) :=
  ruleFailures_pagesKeys (hnames name)
    (fun page hpage => hbuiltin page (mem_pagesIn_iff.mp hpage).1) hpart options

/-- What the rules at the top find wrong. -/
theorem ruleFailures_top (options : ValidationOptions) :
    ruleFailures (Rule.checkKeys options (pagesKeys (pagesIn model.pages none)) state).2 =
      (pagesIn model.pages none).flatMap (·.ruleFailures state) := by
  rw [ruleFailures_pagesIn hbuiltin hnames state]
  · refine List.flatMap_congr fun page hpage => ?_
    have hinState : page.inState = id := by
      funext failure
      rw [Page.inState, (mem_pagesIn_iff.mp hpage).2, id]
    rw [Page.ruleFailures, hinState, List.map_id]
  · intro page hpage
    rw [Page.stored, Page.pageState?, (mem_pagesIn_iff.mp hpage).2]
    rfl

/-- What the rules of a section's part find wrong. -/
theorem ruleFailures_inside {name : String} {part : State}
    (hpart : state.get? name = some (.obj part)) (title : String) (options : ValidationOptions) :
    (ruleFailures (((pagesSchema (pagesIn model.pages (some name))).labelled title).check options
        name (some state) (state.get? name)).failures).map (Failure.under name) =
      (pagesIn model.pages (some name)).flatMap (·.ruleFailures state) := by
  rw [ruleFailures_section hpart, ruleFailures_pagesIn hbuiltin hnames state, List.map_flatMap]
  · refine List.flatMap_congr fun page hpage => ?_
    have hinState : page.inState = Failure.under name := by
      funext failure
      rw [Page.inState, (mem_pagesIn_iff.mp hpage).2]
    rw [Page.ruleFailures, hinState]
  · intro page hpage
    rw [Page.stored, Page.pageState?, (mem_pagesIn_iff.mp hpage).2]
    dsimp only
    rw [hpart]
    rfl

/-- What the rules of the whole state find wrong, part by part. -/
theorem ruleFailures_eq_parts
    (hschema : model.schema = modelSchema model.definition.sections model.pages)
    (hapart : ∀ s ∈ model.definition.sections, s.name ∉ pagesNames (pagesIn model.pages none))
    (hparts : ∀ page ∈ model.pages, (page.pageState? state).isSome = true) :
    ruleFailures (model.failures state) =
      (model.parts.flatMap (pagesIn model.pages)).flatMap (·.ruleFailures state) := by
  have htop : ∀ s ∈ model.definition.sections,
      s.name ∉ (pagesKeys (pagesIn model.pages none)).names :=
    fun s hs hkey => hapart s hs (mem_names_pagesKeys_iff.mp hkey)
  have hinside : ∀ entry ∈ sectionsKeys model.pages [] model.definition.sections,
      (ruleFailures (entry.2.check model.settings entry.1 (some state)
        (state.get? entry.1)).failures).map (Failure.under entry.1) =
      (pagesIn model.pages (some entry.1)).flatMap (·.ruleFailures state) := by
    intro entry hentry
    obtain ⟨s, -, hne, rfl⟩ := (mem_sectionsKeys hentry).resolve_left List.not_mem_nil
    obtain ⟨first, hfirst⟩ := List.exists_mem_of_ne_nil _ hne
    obtain ⟨hmem, hname⟩ := mem_pagesIn_iff.mp hfirst
    obtain ⟨part, hpart⟩ := Option.isSome_iff_exists.mp (hparts first hmem)
    rw [Page.pageState?, hname] at hpart
    exact ruleFailures_inside hbuiltin hnames state (get?_eq_obj hpart) s.title model.settings
  rw [failures_eq hschema, ruleFailures_append, Rule.ruleFailures_checkUnknown, List.append_nil,
    Rule.ruleFailures_checkKeys, rules, sectionsKeys_eq_append model.pages htop,
    List.flatMap_append, ← Rule.ruleFailures_checkKeys, ruleFailures_top hbuiltin hnames,
    List.flatMap_congr hinside, parts, List.flatMap_cons, List.flatMap_append, Keys.names,
    List.map_map, List.flatMap_map, List.flatMap_assoc]
  rfl

end

/-- Checking the whole state is checking every page's own answers. Where every section that has pages
holds an object, the rules of the whole state find, up to order, exactly what the rules of each page
find in its own slice of the state, under the name of its section. -/
theorem ruleFailures_perm {source : Json} {options : Options} {types : TypeRegistry} {model : Model}
    (hmodel : Model.ofJson source options types = .ok model) (hbuiltin : types.IsBuiltin)
    (hnames : ∀ name, (pagesNames (pagesIn model.pages name)).Nodup)
    (hapart : ∀ s ∈ model.definition.sections, s.name ∉ pagesNames (pagesIn model.pages none))
    {state : State} (hparts : ∀ page ∈ model.pages, (page.pageState? state).isSome = true) :
    (ruleFailures (model.failures state)).Perm (model.pages.flatMap (·.ruleFailures state)) := by
  obtain ⟨hschema, -⟩ := page_of_compile hmodel
  have hfields : ∀ page ∈ model.pages, ∀ q ∈ questions page.components,
      q.field.IsBuiltinField = true :=
    fun page hpage _ => isBuiltinField_of_ofJson hmodel hbuiltin hpage
  have hgroups : (model.parts.flatMap (pagesIn model.pages)).Perm model.pages :=
    perm_flatMap_filter Page.sectionName? model.nodup_parts
      fun page hpage => mem_parts (section_of_ofJson hmodel) hpage
  rw [ruleFailures_eq_parts hfields hnames state hschema hapart hparts]
  exact hgroups.flatMap_right _

end Model

theorem ruleFailures_perm_stay :
    Model.ofJson staySource {} .builtin = .ok (compiled staySource) ∧
      ((compiled staySource).failures stayState).map Failure.message =
        ["\"Name\" is not allowed to be empty", "\"Note\" must be a string",
          "\"Reason\" is required", "\"hall\" is not allowed"] ∧
      (ruleFailures ((compiled staySource).failures stayState)).Perm
        ((compiled staySource).pages.flatMap (·.ruleFailures stayState)) := by
  have hmodel : Model.ofJson staySource {} .builtin = .ok (compiled staySource) := by
    with_unfolding_all rfl
  refine ⟨hmodel, by decide +kernel, ?_⟩
  refine Model.ruleFailures_perm hmodel TypeRegistry.isBuiltin_builtin ?_ ?_ ?_
  · exact Model.nodup_pagesNames_pagesIn (by with_unfolding_all decide)
  · with_unfolding_all decide
  · with_unfolding_all decide

/-- An address, as it is written. -/
def homePageSource : Json :=
  .obj
    [("pages", .arr
      [.obj [("components", .arr [fieldSource "UkAddressField" "home" "Home" []]),
        ("path", .str "/address")]])]

/-- A valid address with a member that addresses do not have. -/
def countyState : State :=
  [("home", .obj [("county", .str "Kent"), ("locality", .str ""), ("postcode", .str "SW1A 1AA"),
    ("premises", .str "1"), ("street", .str ""), ("town", .str "London")])]

/-- A page also refuses members that addresses do not have, so all that it finds wrong is more than
what the rules of the whole state find. -/
theorem exists_failures_not_perm :
    ∃ model state, Model.ofJson homePageSource {} .builtin = .ok model ∧
      (∀ name, (pagesNames (pagesIn model.pages name)).Nodup) ∧
      (∀ s ∈ model.definition.sections, s.name ∉ pagesNames (pagesIn model.pages none)) ∧
      (∀ page ∈ model.pages, (page.pageState? state).isSome = true) ∧
      ¬ (ruleFailures (model.failures state)).Perm (model.pages.flatMap fun page =>
        (page.failures (page.slice state)).map page.inState) := by
  refine ⟨compiled homePageSource, countyState, ?_, ?_, ?_, ?_, ?_⟩
  · with_unfolding_all rfl
  · exact Model.nodup_pagesNames_pagesIn (by with_unfolding_all decide)
  · with_unfolding_all decide
  · with_unfolding_all decide
  · decide +kernel

end Questionnaire
