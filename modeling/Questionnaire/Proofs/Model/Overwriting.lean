import Questionnaire.Proofs.Component.Objects
import Questionnaire.Proofs.Model.Run
import Questionnaire.Proofs.Page.Required
import Questionnaire.Proofs.Page.Submitting

/-!
# Answers that are given again

A submission that proceeds replaces the earlier answers under every key that it answers
(`Model.answered_again_of_run`). Merging would leave parts of an object behind; but the objects that
a run stores under the keys of its pages are addresses (`storesAddresses_run`), and these all have
the same parts. A key that a submission does not answer keeps its earlier answer: there is nothing
that takes it out of the state. It belongs to a field behind an item that is not chosen.
-/

namespace Questionnaire

namespace Page

variable {page : Page}

/-- A key of the page without an answer is that of a field that counts as not given, behind an item
that is not chosen. -/
theorem exists_dropped {data : FormData} {answers : State}
    (h : page.validateState (page.toState data) = .ok answers) {key : String}
    (hkey : key ∈ (stateKeys page.components).names) (hnone : answers.get? key = none) :
    ∃ q ∈ questions page.components, q.name = key ∧ (q.field.stored data).isTruthy = false ∧
      ∃ reveal ∈ q.behind, reveal.isChosen data = false := by
  obtain ⟨haccepts, rfl⟩ := accepts_of_validateState h
  rw [← Side.groupKeys_state] at hkey
  obtain ⟨rule, hrule⟩ : ∃ rule, (Side.state.groupKeys page.components).get? key = some rule := by
    rw [← Option.isSome_iff_exists, Keys.isSome_get?, Keys.has_iff_mem_names]
    exact hkey
  rw [Side.converted, Rule.get?_checkKeys {} (Side.state.nodup_groupKeys page.components), hrule,
    Option.bind_some] at hnone
  have hmissing : (page.toState data).get? key = none := by
    have hpass := haccepts.passes _ (Keys.mem_of_get? hrule)
    cases hvalue : (page.toState data).get? key with
    | none => rfl
    | some value =>
        rw [hvalue] at hpass hnone
        exact absurd hnone (Rule.value_of_passes hpass)
  by_contra hall
  obtain ⟨q, hq, hname⟩ := Side.state.mem_names_groupKeys_iff.mp hkey
  rw [names_state hq] at hname
  have hsome := isSome_get?_addToState data page.components
    ⟨q, hq, (List.mem_singleton.mp hname).symm⟩ fun other hother hname => by
      by_contra hdropped
      exact hall ⟨other, hother, hname, by simpa [Question.isKept] using hdropped⟩
  rw [show addToState data [] page.components = page.toState data from rfl, hmissing] at hsome
  cases hsome

/-- A page with fields of built-in types alone, none of which welcomes an object. -/
structure HasPlainFields (page : Page) : Prop where
  builtin : ∀ q ∈ questions page.components, q.field.IsBuiltinField = true
  objects : ∀ q ∈ questions page.components, q.field.definition.WelcomesNoObject

/-- An object among the answers of such a page is an address. -/
theorem HasPlainFields.isAddress (h : page.HasPlainFields) {payload : FormData} {answers : State}
    (hanswers : page.answers payload = .ok answers) {key : String} {fields : Fields}
    (hkey : answers.get? key = some (.obj fields)) :
    IsAddress fields ∧ ∃ q ∈ questions page.components, q.name = key ∧ q.AsksAddress := by
  obtain ⟨data, hdata, hstate⟩ := answers_eq_ok_iff.mp hanswers
  obtain ⟨hform, rfl⟩ := accepts_of_validateForm hdata
  obtain ⟨haccepts, rfl⟩ := accepts_of_validateState hstate
  exact isAddress_of_converted_state h.builtin h.objects
    (fun _ _ hvalue => isObj_of_converted_form h.builtin h.objects hform hvalue) haccepts hkey

end Page

/-! ## What a run stores -/

namespace Model

/-- Every object that is stored for a question for an address is one. -/
def StoresAddresses (model : Model) (state : State) : Prop :=
  ∀ page ∈ model.pages, ∀ q ∈ questions page.components, q.AsksAddress →
    ∀ fields, (page.stored state).get? q.name = some (.obj fields) → IsAddress fields

/-- No address outside sections has the name of a section with a page. -/
def AddressesApart (model : Model) : Prop :=
  ∀ page ∈ model.pages, page.sectionName? = none → ∀ q ∈ questions page.components,
    q.AsksAddress → ∀ other ∈ model.pages, other.sectionName? ≠ some q.name

section

variable {model : Model} (hplain : ∀ page ∈ model.pages, page.HasPlainFields)
  (hapart : model.AddressesApart) {state : State} (h : model.StoresAddresses state) {page : Page}
  (hpage : page ∈ model.pages) {payload : FormData} {answers : State}
  (hanswers : page.answers payload = .ok answers)

include hplain h hpage hanswers

/-- What a page has answered is stored as it is, in place of what was stored. -/
theorem StoresAddresses.replaces {stored : State}
    (hmerges : Page.Merges (page.stored state) answers stored) {key : String} {value : Json}
    (hvalue : answers.get? key = some value) : stored.get? key = some value := by
  rw [hmerges key, hvalue]
  refine congrArg some ?_
  cases value with
  | obj fields =>
      obtain ⟨haddress, q, hq, rfl, hasks⟩ := (hplain page hpage).isAddress hanswers hvalue
      exact haddress.mergeValue_eq (h page hpage q hq hasks)
  | _ => rfl

omit h in
include hapart in
/-- A section's part of the state is no more there once a page outside sections has answered under
the section's name, and otherwise it is as it was. -/
theorem stored_section_cases (hnone : page.sectionName? = none) {other : Page}
    (hother : other ∈ model.pages) {name : String} (hname : other.sectionName? = some name) :
    other.stored (state.merge (page.asUpdate answers)) = [] ∨
      other.stored (state.merge (page.asUpdate answers)) = other.stored state := by
  have hget := get?_mergeFields (Page.ordered_answers hanswers) state name
  unfold Page.stored Page.pageState? Page.asUpdate State.merge
  rw [hnone, hname]
  dsimp only
  rw [hget]
  cases hvalue : answers.get? name with
  | none => exact .inr rfl
  | some value =>
      cases value with
      | obj fields =>
          obtain ⟨-, q, hq, rfl, hasks⟩ := (hplain page hpage).isAddress hanswers hvalue
          exact absurd hname (hapart page hpage hnone q hq hasks other hother)
      | _ => exact .inl rfl

omit h in
include hapart in
/-- What another part of the state holds for an address is no more there or as it was. -/
theorem get?_stored_other_cases {other : Page} (hother : other ∈ model.pages)
    (hpart : other.sectionName? ≠ page.sectionName?) {q : Question}
    (hq : q ∈ questions other.components) (hasks : q.AsksAddress) :
    (other.stored (state.merge (page.asUpdate answers))).get? q.name = none ∨
      (other.stored (state.merge (page.asUpdate answers))).get? q.name =
        (other.stored state).get? q.name := by
  have hmem : ∀ member ∈ answers, member.1 ∈ stateNames page.components :=
    fun _ => Page.mem_stateNames_of_answers hanswers
  have hordered := Page.ordered_answers hanswers
  cases hown : page.sectionName? with
  | some own =>
      have hsome : page.sectionName? ≠ none := Option.ne_none_iff_exists'.mpr ⟨own, hown⟩
      right
      cases hname : other.sectionName? with
      | none =>
          unfold Page.stored Page.pageState?
          rw [hname]
          exact Page.get?_merge_other hmem hordered (hapart other hother hname q hq hasks page hpage)
            fun hnone => absurd hnone hsome
      | some name =>
          have hne : page.sectionName? ≠ some name := hname ▸ Ne.symm hpart
          rw [Page.stored_merge_other hmem hordered hname hne fun hnone => absurd hnone hsome]
  | none =>
      obtain ⟨name, hname⟩ := Option.ne_none_iff_exists'.mp fun hnone =>
        hpart (hnone.trans hown.symm)
      rcases stored_section_cases hplain hapart hpage hanswers hown hother hname with hnil | hleft
      · rw [hnil]
        exact .inl rfl
      · rw [hleft]
        exact .inr rfl

include hapart

/-- The answers of a page leave addresses in the place of addresses. -/
theorem StoresAddresses.merge : model.StoresAddresses (state.merge (page.asUpdate answers)) := by
  intro other hother q hq hasks fields hfields
  have hbefore := h other hother q hq hasks fields
  by_cases hsame : other.sectionName? = page.sectionName?
  -- In the page's own part each answer replaces what was there, and the rest is left.
  · obtain ⟨stored, hstored, hmerges, -⟩ :=
      Page.pageState?_merge page state (Page.ordered_answers hanswers)
    rw [Page.stored_congr hsame, Page.stored, hstored] at hfields
    change stored.get? q.name = _ at hfields
    cases hvalue : answers.get? q.name with
    | some value =>
        rw [h.replaces hplain hpage hanswers hmerges hvalue] at hfields
        exact ((hplain page hpage).isAddress hanswers (hvalue.trans hfields)).1
    | none =>
        rw [hmerges.get?_of_none hvalue, ← Page.stored_congr hsame] at hfields
        exact hbefore hfields
  · rcases get?_stored_other_cases hplain hapart hpage hanswers hother hsame hq hasks with
      hgone | hleft
    · cases hgone.symm.trans hfields
    · exact hbefore (hleft.symm.trans hfields)

omit hplain h hpage hanswers hapart in
theorem storesAddresses_nil (model : Model) : model.StoresAddresses [] := by
  intro page _ q _ _ fields hfields
  rw [Page.stored_nil] at hfields
  cases hfields

omit h hpage hanswers in
/-- A run stores addresses alone as objects. -/
theorem storesAddresses_run {steps : List (Page × FormData)}
    (hsteps : ∀ step ∈ steps, step.1 ∈ model.pages) :
    model.StoresAddresses (Progress.run steps).store.held := by
  refine Progress.run_induction (P := fun progress => model.StoresAddresses progress.store.held)
    (storesAddresses_nil model) fun progress step hstep answers hanswers h => ?_
  exact h.merge hplain hapart (hsteps step hstep) hanswers

end

/-- A submission that proceeds after any others stores under each of the page's keys what it has
answered, in place of any earlier answer. Under a key that it does not answer the earlier answer
stays; then the key is that of a field that counts as not given, behind an item that is not chosen.
No definition may welcome an object, and no address outside sections may have the name of a section,
since objects are merged into those that are stored and keep members of them. -/
theorem answered_again_of_run {source : Json} {options : Options} {types : TypeRegistry}
    {model : Model} (hmodel : Model.ofJson source options types = .ok model)
    (hbuiltin : types.IsBuiltin)
    (hobjects : ∀ page ∈ model.pages, ∀ q ∈ questions page.components,
      q.field.definition.WelcomesNoObject)
    (hapart : model.AddressesApart) {steps : List (Page × FormData)}
    (hsteps : ∀ step ∈ steps, step.1 ∈ model.pages) {page : Page} (hpage : page ∈ model.pages)
    {payload : FormData} {next : String} {state : State} {store : Store}
    (hsubmit :
      page.submit payload (Progress.run steps).store = (.ok (.proceed next state), store)) :
    ∃ data answers stored, page.validateForm payload = .ok data ∧
      page.validateState (page.toState data) = .ok answers ∧
      page.pageState? state = some stored ∧
      ∀ key ∈ (stateKeys page.components).names,
        (∀ value, answers.get? key = some value → stored.get? key = some value) ∧
        (answers.get? key = none →
          stored.get? key = (page.stored (Progress.run steps).store.held).get? key ∧
          ∃ q ∈ questions page.components, q.name = key ∧
            (q.field.stored data).isTruthy = false ∧
            ∃ reveal ∈ q.behind, reveal.isChosen data = false) := by
  obtain ⟨-, hpages⟩ := page_of_compile hmodel
  have hplain : ∀ page ∈ model.pages, page.HasPlainFields := by
    intro page hpage
    obtain ⟨definition, location, hcompile⟩ := hpages page hpage
    exact ⟨isBuiltinField_of_compileGroup hbuiltin (Page.compileGroup_of_compile hcompile),
      hobjects page hpage⟩
  have hbefore := storesAddresses_run hplain hapart hsteps
  obtain ⟨answers, hanswers, rfl, -⟩ := Page.submit_proceed hsubmit
  obtain ⟨stored, hstored, hmerges, -⟩ :=
    Page.pageState?_merge page (Progress.run steps).store.held (Page.ordered_answers hanswers)
  obtain ⟨data, hdata, hstate⟩ := Page.answers_eq_ok_iff.mp hanswers
  refine ⟨data, answers, stored, hdata, hstate, hstored, fun key hkey => ⟨?_, fun hnone => ?_⟩⟩
  · exact fun value hvalue => hbefore.replaces hplain hpage hanswers hmerges hvalue
  · exact ⟨hmerges.get?_of_none hnone, Page.exists_dropped hstate hkey hnone⟩

/-- After some submissions, one that proceeds and leaves something else than its answer under a key
of its page. -/
def LeavesOther (model : Model) (steps : List (Page × FormData)) (page : Page) (payload : FormData)
    (key : String) : Prop :=
  (∀ step ∈ steps, step.1 ∈ model.pages) ∧ page ∈ model.pages ∧
    key ∈ (stateKeys page.components).names ∧
    ∃ answers next state store, page.answers payload = .ok answers ∧
      page.submit payload (Progress.run steps).store = (.ok (.proceed next state), store) ∧
      (page.stored state).get? key ≠ answers.get? key

theorem submit_after {first second : Page} {earlier later : FormData} {before after : State}
    (hearlier : first.answers earlier = .ok before) (hlater : second.answers later = .ok after) :
    ∃ next, second.submit later (Progress.run [(first, earlier)]).store =
      (.ok (.proceed next ((State.merge [] (first.asUpdate before)).merge (second.asUpdate after))),
        .inMemory ((State.merge [] (first.asUpdate before)).merge (second.asUpdate after))) := by
  have hrun : Progress.run [(first, earlier)] =
      ⟨.inMemory (State.merge [] (first.asUpdate before)), [first]⟩ :=
    Progress.submit_of_answers hearlier rfl
  rw [hrun]
  exact ⟨_, Page.submit_inMemory hlater _⟩

theorem exists_steps_leavesOther {model : Model} {key : String} (earlier later : FormData)
    (before after : State)
    (h : ∃ first ∈ model.pages, ∃ second ∈ model.pages, first.answers earlier = .ok before ∧
      second.answers later = .ok after ∧ key ∈ (stateKeys second.components).names ∧
      (second.stored ((State.merge [] (first.asUpdate before)).merge
        (second.asUpdate after))).get? key ≠ after.get? key) :
    ∃ steps page payload, model.LeavesOther steps page payload key := by
  obtain ⟨first, hfirst, second, hsecond, hearlier, hlater, hkey, hother⟩ := h
  obtain ⟨next, hsubmit⟩ := submit_after hearlier hlater
  refine ⟨[(first, earlier)], second, later, ?_, hsecond, hkey, after, next, _, _, hlater, hsubmit,
    hother⟩
  intro step hstep
  obtain rfl := List.mem_singleton.mp hstep
  exact hfirst

end Model

/-! ### Given again -/

/-- The answers of a visitor who refuses. -/
def refusalData : FormData :=
  [("consent", .arr [.str "false"]), ("reason", .str "Too soon")]

/-- The answers of a visitor who consents. -/
def consentData : FormData :=
  [("consent", .arr [.str "true"])]

theorem exists_page_consent : ∃ page ∈ (compiled consentSource).pages,
    page.answers refusalData = .ok [("consent", .arr [.bool false]), ("reason", .str "Too soon")] ∧
      page.answers consentData = .ok [("consent", .arr [.bool true])] ∧
      (stateKeys page.components).names = ["consent", "reason"] := by
  with_unfolding_all decide +kernel

/-- Consent in place of a refusal, whose reason stays. -/
theorem answered_again_consent :
    ∃ page ∈ (compiled consentSource).pages, ∃ next state store stored,
      page.submit consentData (Progress.run [(page, refusalData)]).store =
          (.ok (.proceed next state), store) ∧
        page.pageState? state = some stored ∧
        stored.get? "consent" = some (.arr [.bool true]) ∧
        stored.get? "reason" =
          (page.stored (Progress.run [(page, refusalData)]).store.held).get? "reason" := by
  obtain ⟨page, hpage, hrefusal, hconsent, hkeys⟩ := exists_page_consent
  obtain ⟨next, hsubmit⟩ := Model.submit_after hrefusal hconsent
  have hmodel : Model.ofJson consentSource {} .builtin = .ok (compiled consentSource) := by
    with_unfolding_all rfl
  have hobjects : ∀ page ∈ (compiled consentSource).pages, ∀ q ∈ questions page.components,
      q.field.definition.WelcomesNoObject := by
    have hallow : ∀ page ∈ (compiled consentSource).pages, ∀ q ∈ questions page.components,
        q.field.definition.constraints.allow = none := by
      with_unfolding_all decide
    intro page hpage q hq
    rw [ComponentDefinition.WelcomesNoObject, hallow page hpage q hq]
    trivial
  have hapart : (compiled consentSource).AddressesApart := by
    have hsections : ∀ page ∈ (compiled consentSource).pages, page.sectionName? ≠ none := by
      with_unfolding_all decide
    exact fun page hpage hnone => absurd hnone (hsections page hpage)
  have hsteps : ∀ step ∈ [(page, refusalData)], step.1 ∈ (compiled consentSource).pages := by
    intro step hstep
    obtain rfl := List.mem_singleton.mp hstep
    exact hpage
  obtain ⟨data, answers, stored, hdata, hanswers, hstored, hagain⟩ :=
    Model.answered_again_of_run hmodel TypeRegistry.isBuiltin_builtin hobjects
      hapart hsteps hpage hsubmit
  have hvalue : answers = [("consent", .arr [.bool true])] := by
    have hboth := Page.answers_eq_ok_iff.mpr ⟨data, hdata, hanswers⟩
    exact Except.ok.inj (hboth.symm.trans hconsent)
  refine ⟨page, hpage, next, _, _, stored, hsubmit, hstored, ?_, ?_⟩
  · exact (hagain "consent" (by rw [hkeys]; exact .head _)).1 _ (by rw [hvalue]; rfl)
  · exact ((hagain "reason" (by rw [hkeys]; exact .tail _ (.head _))).2 (by rw [hvalue]; rfl)).1

/-- An address outside sections with the name of a section, which has a page too, as it is
written. -/
def sharedNameSource : Json :=
  .obj
    [("pages", .arr
      [.obj [("components", .arr [fieldSource "UkAddressField" "home" "Home" []]),
          ("path", .str "/address")],
        .obj [("components", .arr [fieldSource "TextField" "note" "Note" []]),
          ("path", .str "/note"), ("section", .str "home")]]),
      ("sections", .arr [.obj [("name", .str "home"), ("title", .str "Home")]])]

/-- A field that welcomes two objects, as it is written. -/
def profileSource : Json :=
  visitSource []
    [.obj
      [("name", .str "profile"),
        ("schema", .obj [("allow", .arr [.obj [("old", .bool true)], .obj [("new", .bool true)]])]),
        ("title", .str "Profile"), ("type", .str "TextField")]]

/-- Submissions that leave something else than their answer under a key of their page: the reason of
a refusal that is taken back, the other answers of a section by the name of an address, and the
member of an object that was welcome before. -/
theorem exists_leavesOther :
    (Model.ofJson consentSource {} .builtin = .ok (compiled consentSource) ∧
        ∃ steps page payload, (compiled consentSource).LeavesOther steps page payload "reason") ∧
      (Model.ofJson sharedNameSource {} .builtin = .ok (compiled sharedNameSource) ∧
        ∃ steps page payload, (compiled sharedNameSource).LeavesOther steps page payload "home") ∧
      Model.ofJson profileSource {} .builtin = .ok (compiled profileSource) ∧
        ∃ steps page payload,
          (compiled profileSource).LeavesOther steps page payload "profile" := by
  refine ⟨⟨by with_unfolding_all rfl, ?_⟩, ⟨by with_unfolding_all rfl, ?_⟩,
    by with_unfolding_all rfl, ?_⟩
  · exact Model.exists_steps_leavesOther refusalData consentData
      [("consent", .arr [.bool false]), ("reason", .str "Too soon")]
      [("consent", .arr [.bool true])]
      (by with_unfolding_all decide +kernel)
  · exact Model.exists_steps_leavesOther [("note", .str "Ring twice")] (addressedData [])
      [("note", .str "Ring twice")] [("home", londonAddress)]
      (by with_unfolding_all decide +kernel)
  · exact Model.exists_steps_leavesOther [("profile", .obj [("old", .bool true)])]
      [("profile", .obj [("new", .bool true)])] [("profile", .obj [("old", .bool true)])]
      [("profile", .obj [("new", .bool true)])] (by with_unfolding_all decide +kernel)

end Questionnaire
