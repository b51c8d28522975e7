import Mathlib.Data.List.Pairwise
import Questionnaire.Model.Summary
import Questionnaire.Proofs.Component.Compiled
import Questionnaire.Proofs.Model.Schema

/-!
# Runs

A run submits pages one after another, in any order and with any payloads. Every submission keeps
what is stored of each page consistent, and makes it complete for the page that proceeds
(`Progress.Sound.proceed`). So once every page has proceeded the whole state is valid and its summary
is ready (`ready_of_run`).
-/

namespace Questionnaire

/-! ## What a submission does to other pages -/

namespace Page

theorem submit_cases (page : Page) (payload : FormData) (store : Store) :
    (∃ answers next, page.answers payload = .ok answers ∧
        page.submit payload store =
          (.ok (.proceed next (store.held.merge (page.asUpdate answers))),
            { store with held := store.held.merge (page.asUpdate answers) })) ∨
      ∃ result, page.submit payload store = (result, store) ∧
        ∀ next state, result ≠ .ok (.proceed next state) := by
  unfold submit
  cases page.answers payload with
  | error summary => exact Or.inr ⟨_, rfl, nofun⟩
  | ok answers =>
      unfold Store.merge
      cases store.mergeError with
      | some e => exact Or.inr ⟨_, rfl, nofun⟩
      | none => exact Or.inl ⟨answers, _, rfl, rfl⟩

variable {page other : Page} {state : State} {answers : State}

/-- A section's part of the state, as it is left by the answers of a page. -/
theorem get?_merge_other (hanswers : ∀ member ∈ answers, member.1 ∈ stateNames page.components)
    (hordered : answers.Ordered) {name : String} (hname : page.sectionName? ≠ some name)
    (hapart : page.sectionName? = none → name ∉ stateNames page.components) :
    (state.merge (page.asUpdate answers)).get? name = state.get? name := by
  unfold asUpdate
  cases hsection : page.sectionName? with
  | none =>
      have hnone : answers.get? name = none := by
        refine Fields.get?_eq_none fun member hmember heq => hapart hsection ?_
        rw [← heq]
        exact hanswers member hmember
      show Fields.get? (mergeFields state answers) name = _
      rw [get?_mergeFields hordered, hnone]
  | some own =>
      have hne : own ≠ name := by
        rintro rfl
        exact hname hsection
      show (state.merge [(own, .obj answers)]).get? name = _
      rw [get?_merge_section, if_neg hne]

theorem isSome_pageState?_merge
    (hanswers : ∀ member ∈ answers, member.1 ∈ stateNames page.components)
    (hordered : answers.Ordered)
    (hapart : ∀ name, page.sectionName? = none → other.sectionName? = some name →
      name ∉ stateNames page.components)
    (h : (other.pageState? state).isSome = true) :
    (other.pageState? (state.merge (page.asUpdate answers))).isSome = true := by
  by_cases hsame : other.sectionName? = page.sectionName?
  · obtain ⟨stored, hstored, -⟩ := pageState?_merge page state hordered
    unfold pageState? at hstored ⊢
    rw [hsame, hstored]
    rfl
  · unfold pageState? at h ⊢
    cases hother : other.sectionName? with
    | none => rfl
    | some name =>
        rw [hother] at h hsame
        dsimp only at h ⊢
        rw [get?_merge_other hanswers hordered (Ne.symm hsame) fun hnone =>
          hapart name hnone hother]
        exact h

theorem stored_congr (hsame : other.sectionName? = page.sectionName?) (state : State) :
    other.stored state = page.stored state := by
  unfold Page.stored pageState?
  rw [hsame]

theorem stored_merge_other (hanswers : ∀ member ∈ answers, member.1 ∈ stateNames page.components)
    (hordered : answers.Ordered) {name : String} (hother : other.sectionName? = some name)
    (hname : page.sectionName? ≠ some name)
    (hapart : page.sectionName? = none → name ∉ stateNames page.components) :
    other.stored (state.merge (page.asUpdate answers)) = other.stored state := by
  unfold Page.stored pageState?
  rw [hother]
  dsimp only
  rw [get?_merge_other hanswers hordered hname hapart]

/-- What is stored of other pages is not touched. -/
theorem get?_stored_merge (hanswers : ∀ member ∈ answers, member.1 ∈ stateNames page.components)
    (hordered : answers.Ordered)
    (hdisjoint : other.sectionName? = page.sectionName? →
      ∀ key ∈ stateNames other.components, key ∉ stateNames page.components)
    (hinside : ∀ name, page.sectionName? = none → other.sectionName? = some name →
      name ∉ stateNames page.components)
    (houtside : ∀ name, page.sectionName? = some name → other.sectionName? = none →
      name ∉ stateNames other.components)
    {key : String} (hkey : key ∈ stateNames other.components) :
    (other.stored (state.merge (page.asUpdate answers))).get? key =
      (other.stored state).get? key := by
  by_cases hsame : other.sectionName? = page.sectionName?
  · obtain ⟨stored, hstored, hmerges, -⟩ := pageState?_merge page state hordered
    have hnone : answers.get? key = none := by
      refine Fields.get?_eq_none fun member hmember heq => hdisjoint hsame key hkey ?_
      rw [← heq]
      exact hanswers member hmember
    have hvalue := hmerges key
    rw [hnone] at hvalue
    have hafter : page.stored (state.merge (page.asUpdate answers)) = stored := by
      rw [Page.stored, hstored]
      rfl
    rw [stored_congr hsame, stored_congr hsame, hafter]
    exact hvalue
  · cases hother : other.sectionName? with
    | none =>
        unfold Page.stored pageState?
        rw [hother]
        show (state.merge (page.asUpdate answers)).get? key = state.get? key
        refine get?_merge_other hanswers hordered ?_ ?_
        · intro hname
          exact houtside key hname hother hkey
        · intro hnone
          exact absurd (hother.trans hnone.symm) hsame
    | some name =>
        rw [hother] at hsame
        rw [stored_merge_other hanswers hordered hother (Ne.symm hsame) fun hnone =>
          hinside name hnone hother]

end Page

/-! ## Questionnaires whose state stays sound -/

namespace Model

/-- What is asked of a questionnaire so that its state stays sound: well-formed pages, answers under
names that are their own in each section, and no answer outside sections under the name of one. -/
structure WellFormed (model : Model) : Prop where
  schema : model.schema = modelSchema model.definition.sections model.pages
  sections : ∀ page ∈ model.pages, ∀ name, page.sectionName? = some name →
    ∃ s ∈ model.definition.sections, s.name = name
  pages : ∀ page ∈ model.pages, page.WellFormed
  names : ∀ name, (pagesNames (pagesIn model.pages name)).Nodup
  apart : ∀ s ∈ model.definition.sections, s.name ∉ pagesNames (pagesIn model.pages none)

variable {model : Model} (hmodel : model.WellFormed)

theorem mem_pagesNames {pages : List Page} {page : Page} (hpage : page ∈ pages) {key : String}
    (hkey : key ∈ stateNames page.components) :
    key ∈ pagesNames (pagesIn pages page.sectionName?) :=
  List.mem_flatMap.mpr ⟨page, mem_pagesIn_iff.mpr ⟨hpage, rfl⟩, hkey⟩

/-- Names that are their own on all pages are so in each section. -/
theorem nodup_pagesNames_pagesIn {pages : List Page} (h : (pagesNames pages).Nodup)
    (name : Option String) : (pagesNames (pagesIn pages name)).Nodup := by
  obtain ⟨hpages, hpairs⟩ := List.nodup_flatMap.mp h
  refine List.nodup_flatMap.mpr ⟨fun page hpage => ?_, hpairs.filter _⟩
  exact hpages page (mem_pagesIn_iff.mp hpage).1

include hmodel

theorem WellFormed.disjoint {page other : Page} (hpage : page ∈ model.pages)
    (hother : other ∈ model.pages) (hne : other ≠ page)
    (hsame : other.sectionName? = page.sectionName?) :
    ∀ key ∈ stateNames other.components, key ∉ stateNames page.components := by
  obtain ⟨-, hpairs⟩ := List.nodup_flatMap.mp (hmodel.names page.sectionName?)
  have : Std.Symm (Function.onFun List.Disjoint fun page : Page => stateNames page.components) :=
    ⟨fun _ _ h _ hkey hkey' => h hkey' hkey⟩
  have hdisjoint := hpairs.forall (mem_pagesIn_iff.mpr ⟨hother, hsame⟩)
    (mem_pagesIn_iff.mpr ⟨hpage, rfl⟩) hne
  intro key hkey hkey'
  exact hdisjoint hkey hkey'

theorem WellFormed.name_apart {page : Page} (hpage : page ∈ model.pages)
    (hnone : page.sectionName? = none) {other : Page} (hother : other ∈ model.pages) {name : String}
    (hname : other.sectionName? = some name) : name ∉ stateNames page.components := by
  obtain ⟨s, hs, rfl⟩ := hmodel.sections other hother name hname
  intro hkey
  have hmem := mem_pagesNames hpage hkey
  rw [hnone] at hmem
  exact hmodel.apart s hs hmem

end Model

/-! ## Runs -/

/-- How far a questionnaire has been filled in: the store, and the pages that have proceeded. -/
structure Progress where
  store : Store
  proceeded : List Page

namespace Progress

/-- Nothing has been submitted. -/
def start : Progress := ⟨.inMemory [], []⟩

/-- One submission. -/
def submit (progress : Progress) (step : Page × FormData) : Progress :=
  match step.1.submit step.2 progress.store with
  | (.ok (.proceed _ _), store) => ⟨store, step.1 :: progress.proceeded⟩
  | (_, store) => ⟨store, progress.proceeded⟩

/-- Submissions one after another. -/
def run (steps : List (Page × FormData)) : Progress :=
  steps.foldl submit start

/-- A submission merges its answers into the held state, or it leaves everything as it is. -/
theorem submit_cases (progress : Progress) (step : Page × FormData) :
    (∃ answers, step.1.answers step.2 = .ok answers ∧
        progress.submit step =
          ⟨{ progress.store with held := progress.store.held.merge (step.1.asUpdate answers) },
            step.1 :: progress.proceeded⟩) ∨
      progress.submit step = progress := by
  rw [submit]
  rcases step.1.submit_cases step.2 progress.store with ⟨answers, next, hanswers, hsubmit⟩ |
    ⟨result, hsubmit, hresult⟩
  · rw [hsubmit]
    exact Or.inl ⟨answers, hanswers, rfl⟩
  · rw [hsubmit]
    split
    · next next state store heq =>
      exact absurd (congrArg Prod.fst heq) (hresult next state)
    · next other store _ heq =>
      obtain rfl : progress.store = store := congrArg Prod.snd heq
      exact Or.inr rfl

theorem submit_of_answers {page : Page} {payload : FormData} {answers : State}
    (h : page.answers payload = .ok answers) {progress : Progress}
    (hstore : progress.store.mergeError = none) :
    progress.submit (page, payload) =
      ⟨⟨progress.store.held.merge (page.asUpdate answers), progress.store.readError, none⟩,
        page :: progress.proceeded⟩ := by
  simp only [submit, Page.submit, h, Store.merge, hstore]

/-- What holds at the start and is kept by every submission that proceeds holds after a run. -/
theorem run_induction {P : Progress → Prop} {steps : List (Page × FormData)} (hstart : P start)
    (hproceed : ∀ progress, ∀ step ∈ steps, ∀ answers, step.1.answers step.2 = .ok answers →
      P progress →
      P ⟨{ progress.store with held := progress.store.held.merge (step.1.asUpdate answers) },
        step.1 :: progress.proceeded⟩) : P (run steps) := by
  induction steps using List.reverseRecOn with
  | nil => exact hstart
  | append_singleton steps step ih =>
      have hbefore := ih fun progress other hother =>
        hproceed progress other (List.mem_append_left _ hother)
      rw [run, List.foldl_append]
      show P ((run steps).submit step)
      rcases (run steps).submit_cases step with ⟨answers, hanswers, hsubmit⟩ | hsubmit
      · rw [hsubmit]
        exact hproceed _ step (by simp) answers hanswers hbefore
      · rwa [hsubmit]

/-- What holds of the state at any time: what is stored of a page is consistent, and complete once
the page has proceeded, and nothing else is stored. -/
structure Sound (model : Model) (progress : Progress) : Prop where
  consistent : ∀ page ∈ model.pages, ∀ q ∈ questions page.components,
    q.Consistent (page.stored progress.store.held)
  complete : ∀ page ∈ model.pages, page ∈ progress.proceeded →
    (page.pageState? progress.store.held).isSome = true ∧
      ∀ q ∈ questions page.components, q.Complete (page.stored progress.store.held)
  top : ∀ member ∈ progress.store.held,
    member.1 ∈ pagesNames (pagesIn model.pages none) ∨
      ∃ page ∈ model.pages, page.sectionName? = some member.1
  inside : ∀ page ∈ model.pages, page.sectionName? ≠ none →
    ∀ member ∈ page.stored progress.store.held,
      member.1 ∈ pagesNames (pagesIn model.pages page.sectionName?)

theorem sound_start (model : Model) : start.Sound model := by
  refine ⟨?_, ?_, nofun, ?_⟩
  · intro page _ q _
    show q.Consistent (page.stored [])
    rw [Page.stored_nil]
    exact q.consistent_nil
  · exact fun _ _ hmem => nomatch hmem
  · intro page _ _ member hmember
    change member ∈ page.stored [] at hmember
    rw [Page.stored_nil] at hmember
    exact nomatch hmember

section

variable {model : Model} (hmodel : model.WellFormed) {progress : Progress}
  (h : progress.Sound model) {page : Page} (hpage : page ∈ model.pages) {payload : FormData}
  {answers : State} (hanswers : page.answers payload = .ok answers)

include hmodel h hpage hanswers

/-- The page that proceeds is complete. -/
theorem Sound.complete_page :
    (page.pageState? (progress.store.held.merge (page.asUpdate answers))).isSome = true ∧
      ∀ q ∈ questions page.components,
        q.Complete (page.stored (progress.store.held.merge (page.asUpdate answers))) := by
  obtain ⟨stored, hstored, hmerges, -⟩ :=
    Page.pageState?_merge page progress.store.held (Page.ordered_answers hanswers)
  obtain ⟨data, hdata, hstate⟩ := Page.answers_eq_ok_iff.mp hanswers
  rw [Page.stored, hstored]
  refine ⟨rfl, fun q hq => ?_⟩
  exact (hmodel.pages page hpage).complete_of_answers hdata hstate hmerges hq
    (h.consistent page hpage q hq)

omit h in
/-- What is stored of any other page is as it was. -/
theorem Sound.get?_stored_other {other : Page} (hother : other ∈ model.pages) (hne : other ≠ page)
    {key : String} (hkey : key ∈ stateNames other.components) :
    (other.stored (progress.store.held.merge (page.asUpdate answers))).get? key =
      (other.stored progress.store.held).get? key := by
  refine Page.get?_stored_merge (fun _ => Page.mem_stateNames_of_answers hanswers)
    (Page.ordered_answers hanswers) ?_ ?_ ?_ hkey
  · exact hmodel.disjoint hpage hother hne
  · exact fun name hnone hname => hmodel.name_apart hpage hnone hother hname
  · exact fun name hname hnone => hmodel.name_apart hother hnone hpage hname

/-- What is stored of each page stays consistent. -/
theorem Sound.consistent_merge {other : Page} (hother : other ∈ model.pages) {q : Question}
    (hq : q ∈ questions other.components) :
    q.Consistent (other.stored (progress.store.held.merge (page.asUpdate answers))) := by
  by_cases hne : other = page
  · subst hne
    exact ((h.complete_page hmodel hpage hanswers).2 q hq).toConsistent
  · refine (h.consistent other hother q hq).congr ?_ fun reveal hreveal => ?_
    · exact Sound.get?_stored_other hmodel hpage hanswers hother hne (List.mem_map_of_mem hq)
    · exact Sound.get?_stored_other hmodel hpage hanswers hother hne (chooser_mem_stateNames hq hreveal)

/-- The pages that were complete stay so, and the page that proceeds is complete, too. -/
theorem Sound.complete_merge {other : Page} (hother : other ∈ model.pages)
    (hproceeded : other ∈ page :: progress.proceeded) :
    (other.pageState? (progress.store.held.merge (page.asUpdate answers))).isSome = true ∧
      ∀ q ∈ questions other.components,
        q.Complete (other.stored (progress.store.held.merge (page.asUpdate answers))) := by
  by_cases hne : other = page
  · subst hne
    exact h.complete_page hmodel hpage hanswers
  · have hbefore := h.complete other hother ((List.mem_cons.mp hproceeded).resolve_left hne)
    refine ⟨?_, fun q hq => (hbefore.2 q hq).congr ?_ fun reveal hreveal => ?_⟩
    · exact Page.isSome_pageState?_merge (fun _ => Page.mem_stateNames_of_answers hanswers)
        (Page.ordered_answers hanswers)
        (fun name hnone hname => hmodel.name_apart hpage hnone hother hname) hbefore.1
    · exact Sound.get?_stored_other hmodel hpage hanswers hother hne (List.mem_map_of_mem hq)
    · exact Sound.get?_stored_other hmodel hpage hanswers hother hne (chooser_mem_stateNames hq hreveal)

omit hmodel in
/-- At the top the answers bring no names but those of the page or of its section. -/
theorem Sound.top_merge {member : String × Json}
    (hmember : member ∈ progress.store.held.merge (page.asUpdate answers)) :
    member.1 ∈ pagesNames (pagesIn model.pages none) ∨
      ∃ page ∈ model.pages, page.sectionName? = some member.1 := by
  rcases Page.mem_mergeFields hmember with ⟨old, hold, hkey⟩ | ⟨new, hnew, hkey⟩
  · exact hkey ▸ h.top old hold
  · unfold Page.asUpdate at hnew
    cases hsection : page.sectionName? with
    | none =>
        rw [hsection] at hnew
        have hname := Model.mem_pagesNames hpage (Page.mem_stateNames_of_answers hanswers hnew)
        rw [hsection, hkey] at hname
        exact .inl hname
    | some name =>
        rw [hsection] at hnew
        obtain rfl := List.mem_singleton.mp hnew
        exact .inr ⟨page, hpage, hsection.trans (congrArg some hkey)⟩

/-- Inside a section the answers bring no names but those of its pages. -/
theorem Sound.inside_merge {other : Page} (hother : other ∈ model.pages)
    (hsome : other.sectionName? ≠ none) {member : String × Json}
    (hmember : member ∈ other.stored (progress.store.held.merge (page.asUpdate answers))) :
    member.1 ∈ pagesNames (pagesIn model.pages other.sectionName?) := by
  have hmem : ∀ member ∈ answers, member.1 ∈ stateNames page.components :=
    fun _ => Page.mem_stateNames_of_answers hanswers
  have hordered := Page.ordered_answers hanswers
  by_cases hsame : other.sectionName? = page.sectionName?
  · obtain ⟨stored, hstored, -, hkeys⟩ :=
      Page.pageState?_merge page progress.store.held hordered
    rw [Page.stored_congr hsame, Page.stored, hstored] at hmember
    rw [hsame]
    rcases hkeys member hmember with ⟨before, hbefore, hkey⟩ | ⟨new, hnew, hkey⟩
    · exact hkey ▸ h.inside page hpage (hsame ▸ hsome) before hbefore
    · exact hkey ▸ Model.mem_pagesNames hpage (hmem new hnew)
  · obtain ⟨name, hname⟩ := Option.ne_none_iff_exists'.mp hsome
    rw [hname] at hsame
    rw [Page.stored_merge_other hmem hordered hname (Ne.symm hsame) fun hnone =>
      hmodel.name_apart hpage hnone hother hname] at hmember
    exact h.inside other hother hsome member hmember

/-- The answers of a page, merged into a sound state, leave it sound, with the page complete. -/
theorem Sound.proceed {store : Store}
    (hstore : store.held = progress.store.held.merge (page.asUpdate answers)) :
    Sound model ⟨store, page :: progress.proceeded⟩ where
  consistent _ hother _ hq := hstore ▸ h.consistent_merge hmodel hpage hanswers hother hq
  complete _ hother hproceeded := hstore ▸ h.complete_merge hmodel hpage hanswers hother hproceeded
  top _ hmember := h.top_merge hpage hanswers (hstore ▸ hmember)
  inside _ hother hsome _ hmember :=
    h.inside_merge hmodel hpage hanswers hother hsome (hstore ▸ hmember)

end

/-- A run keeps the state sound. -/
theorem sound_run {model : Model} (hmodel : model.WellFormed) {steps : List (Page × FormData)}
    (hsteps : ∀ step ∈ steps, step.1 ∈ model.pages) : (run steps).Sound model := by
  refine run_induction (sound_start model) fun progress step hstep answers hanswers h => ?_
  exact h.proceed hmodel (hsteps step hstep) hanswers rfl

end Progress

/-! ## Compiled questionnaires -/

namespace Model

section

variable {source : Json} {options : Options} {types : TypeRegistry} {model : Model}

theorem page_of_compile (h : Model.ofJson source options types = .ok model) :
    model.schema = modelSchema model.definition.sections model.pages ∧
      ∀ page ∈ model.pages, ∃ definition location,
        Page.compile definition model.definition.sections
          ⟨model.definition.lists, types, location⟩ model.conditions options = .ok page := by
  unfold Model.ofJson at h
  split at h
  · split at h
    · exact nomatch h
    · obtain ⟨conditions, pages, -, hpages, rfl⟩ := compile_eq_ok_iff.mp h
      refine ⟨rfl, fun page hpage => ?_⟩
      obtain ⟨definition, -, hcompile⟩ := exists_mem_of_mapM hpages hpage
      exact ⟨definition, definition.path, hcompile⟩
  · exact nomatch h

end

end Model

/-- Once every page has proceeded, in whatever order and among whatever other submissions, the state
is valid and its summary is ready. The names of choosers must be their own among the inputs of their
page: of two rules for one input the later stands, and what a chooser selects would be read by the
rule of another field. -/
theorem Model.ready_of_run {source : Json} {options : Options} {types : TypeRegistry}
    {model : Model} (hmodel : Model.ofJson source options types = .ok model)
    (hbuiltin : types.IsBuiltin)
    (hallow : ∀ page ∈ model.pages, ∀ q ∈ questions page.components,
      q.field.definition.constraints.allow = none)
    (hnames : ∀ name, (pagesNames (pagesIn model.pages name)).Nodup)
    (hapart : ∀ s ∈ model.definition.sections, s.name ∉ pagesNames (pagesIn model.pages none))
    (hinputs : ∀ page ∈ model.pages, ∀ q ∈ questions page.components,
      ∀ reveal, q.field.Chooses reveal → (formNames page.components).count q.name = 1)
    {steps : List (Page × FormData)} (hsteps : ∀ step ∈ steps, step.1 ∈ model.pages)
    (hall : ∀ page ∈ model.pages, page ∈ (Progress.run steps).proceeded) :
    (∃ value, model.validateState (Progress.run steps).store.held = .ok value) ∧
      (Summary.of model (Progress.run steps).store.held).ready = true := by
  obtain ⟨hschema, hpages⟩ := page_of_compile hmodel
  have hwell : model.WellFormed := by
    refine ⟨hschema, ?_, ?_, hnames, hapart⟩
    · intro page hpage name hname
      obtain ⟨definition, location, hcompile⟩ := hpages page hpage
      exact Page.section_of_compile hcompile hname
    · intro page hpage
      obtain ⟨definition, location, hcompile⟩ := hpages page hpage
      refine ⟨?_, hallow page hpage, ?_, hinputs page hpage⟩
      · exact isBuiltinField_of_compileGroup hbuiltin (Page.compileGroup_of_compile hcompile)
      · exact (List.nodup_flatMap.mp (hnames page.sectionName?)).1 page
          (mem_pagesIn_iff.mpr ⟨hpage, rfl⟩)
  have hsound := Progress.sound_run hwell hsteps
  have hvalid : ∃ value, model.validateState (Progress.run steps).store.held = .ok value := by
    refine validateState_of_complete hschema hwell.sections hwell.pages ?_ hsound.top ?_
    · intro page hpage
      obtain ⟨hsome, hcomplete⟩ := hsound.complete page hpage (hall page hpage)
      obtain ⟨stored, hstored⟩ := Option.isSome_iff_exists.mp hsome
      rw [Page.stored, hstored] at hcomplete
      exact ⟨stored, hstored, hcomplete⟩
    · intro page hpage name hname stored hstored member hmember
      have hinside := hsound.inside page hpage (by rw [hname]; exact nofun)
      rw [Page.stored, hstored, hname] at hinside
      exact hinside member hmember
  refine ⟨hvalid, ?_⟩
  obtain ⟨value, hvalue⟩ := hvalid
  rw [Summary.of, hvalue]
  rfl

/-! ### A visit -/

/-- A field as it is written. -/
def fieldSource (type name title : String) (options : Fields) : Json :=
  .obj [("name", .str name), ("options", .obj options), ("title", .str title), ("type", .str type)]

/-- A list of the answers no and yes as it is written, with what each reveals. -/
def answersSource (name : String) (no yes : List Json) : Json :=
  .obj
    [("items", .arr
      [.obj [("conditional", .obj [("components", .arr no)]), ("text", .str "No"),
          ("value", .bool false)],
        .obj [("conditional", .obj [("components", .arr yes)]), ("text", .str "Yes"),
          ("value", .bool true)]]),
      ("name", .str name), ("title", .str name), ("type", .str "boolean")]

/-- A questionnaire of one page, which is in a section, as it is written. -/
def visitSource (lists components : List Json) : Json :=
  .obj
    [("lists", .arr lists),
      ("pages", .arr
        [.obj [("components", .arr components), ("path", .str "/visit"),
          ("section", .str "visit")]]),
      ("sections", .arr [.obj [("name", .str "visit"), ("title", .str "Visit")]])]

/-- Consent, and a reason where it is refused. -/
def consentSource : Json :=
  visitSource [answersSource "consent" [fieldSource "TextField" "reason" "Reason" []] []]
    [fieldSource "CheckboxesField" "consent" "Consent" [("list", .str "consent")]]

/-- The model of a questionnaire, or of an empty one when it does not compile. -/
def compiled (source : Json) : Model :=
  match Model.ofJson source {} .builtin with
  | .ok model => model
  | .error _ => ⟨{ pages := [] }, ⟨[], []⟩, [], {}, .any⟩

/-- The pages of a questionnaire, each submitted with the same data. -/
def submitAll (model : Model) (payload : FormData) : List (Page × FormData) :=
  model.pages.map (·, payload)

theorem proceeded_submitAll {model : Model} {payload : FormData} {answers : State}
    (h : ∀ page ∈ model.pages, page.answers payload = .ok answers) :
    ∀ page ∈ model.pages, page ∈ (Progress.run (submitAll model payload)).proceeded := by
  have hfold : ∀ (pages : List Page) (progress : Progress), progress.store.mergeError = none →
      (∀ page ∈ pages, page.answers payload = .ok answers) →
      ((pages.map (·, payload)).foldl Progress.submit progress).proceeded =
        pages.reverse ++ progress.proceeded := by
    intro pages
    induction pages with
    | nil => exact fun _ _ _ => rfl
    | cons first rest ih =>
        intro progress hstore hanswers
        have hsubmit := Progress.submit_of_answers (hanswers first (List.mem_cons_self ..)) hstore
        rw [List.map_cons, List.foldl_cons, hsubmit,
          ih _ rfl fun page hpage => hanswers page (List.mem_cons_of_mem _ hpage)]
        simp
  intro page hpage
  rw [Progress.run, submitAll, hfold model.pages .start rfl h]
  exact List.mem_append_left _ (List.mem_reverse.mpr hpage)

/-- Refusing with a reason, and consenting afterwards. -/
def changeOfMind : List (Page × FormData) :=
  submitAll (compiled consentSource)
      [("consent", .arr [.str "false"]), ("reason", .str "Too soon")] ++
    submitAll (compiled consentSource) [("consent", .arr [.str "true"])]

theorem ready_of_changeOfMind :
    (∃ value, (compiled consentSource).validateState (Progress.run changeOfMind).store.held =
        .ok value) ∧
      (Summary.of (compiled consentSource) (Progress.run changeOfMind).store.held).ready = true := by
  have hmodel : Model.ofJson consentSource {} .builtin = .ok (compiled consentSource) := by
    with_unfolding_all rfl
  have hinputs : ∀ page ∈ (compiled consentSource).pages, ∀ q ∈ questions page.components,
      (formNames page.components).count q.name = 1 := by
    with_unfolding_all decide
  refine Model.ready_of_run hmodel TypeRegistry.isBuiltin_builtin ?_ ?_ ?_ ?_ ?_ ?_
  · with_unfolding_all decide
  · exact Model.nodup_pagesNames_pagesIn (by with_unfolding_all decide)
  · with_unfolding_all decide
  · exact fun page hpage q hq _ _ => hinputs page hpage q hq
  · intro step hstep
    rcases List.mem_append.mp hstep with hstep | hstep <;>
      exact (List.mem_map.mp hstep).elim fun page h => h.2 ▸ h.1
  · have hproceeded : (Progress.run changeOfMind).proceeded =
        (compiled consentSource).pages ++ (compiled consentSource).pages := by
      with_unfolding_all rfl
    rw [hproceeded]
    exact fun page hpage => List.mem_append_left _ hpage

/-- A chooser behind one item with the name of a part of an address behind the other. -/
def homeSource : Json :=
  visitSource
    [answersSource "consent" [fieldSource "TextField" "reason" "Reason" []] [],
      answersSource "kind"
        [fieldSource "CheckboxesField" "home__premises" "Consent" [("list", .str "consent")]]
        [fieldSource "UkAddressField" "home" "Home" [("required", .bool false)]]]
    [fieldSource "CheckboxesField" "kind" "Kind" [("list", .str "kind")]]

/-- Without names of their own, choosers are read by the rules of other fields: the submission
proceeds, and the state that it stores is not valid. -/
theorem exists_run_not_ready :
    ∃ model steps, Model.ofJson homeSource {} .builtin = .ok model ∧
      (∀ page ∈ model.pages, ∀ q ∈ questions page.components,
        q.field.definition.constraints.allow = none) ∧
      (∀ name, (pagesNames (pagesIn model.pages name)).Nodup) ∧
      (∀ s ∈ model.definition.sections, s.name ∉ pagesNames (pagesIn model.pages none)) ∧
      (∀ step ∈ steps, step.1 ∈ model.pages) ∧
      (∀ page ∈ model.pages, page ∈ (Progress.run steps).proceeded) ∧
      (Summary.of model (Progress.run steps).store.held).ready = false := by
  refine ⟨compiled homeSource, submitAll (compiled homeSource)
    [("home__premises", .str "FALSE"), ("kind", .arr [.str "false"])], ?_, ?_, ?_, ?_, ?_, ?_, ?_⟩
  · with_unfolding_all rfl
  · with_unfolding_all decide
  · exact Model.nodup_pagesNames_pagesIn (by with_unfolding_all decide)
  · with_unfolding_all decide
  · exact fun step hstep => (List.mem_map.mp hstep).elim fun page h => h.2 ▸ h.1
  · have hanswers : ∀ page ∈ (compiled homeSource).pages,
        page.answers [("home__premises", .str "FALSE"), ("kind", .arr [.str "false"])] =
          .ok
            [("home", .obj [("locality", .str ""), ("postcode", .str ""), ("premises", .str "FALSE"),
                ("street", .str ""), ("town", .str "")]),
              ("home__premises", .bool false), ("kind", .arr [.bool false])] := by
      decide +kernel
    exact proceeded_submitAll hanswers
  · decide +kernel

end Questionnaire
