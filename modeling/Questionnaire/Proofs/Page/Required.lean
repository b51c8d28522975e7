import Questionnaire.Proofs.Component.Compiled
import Questionnaire.Proofs.Component.Converting
import Questionnaire.Proofs.Component.Stored
import Questionnaire.Proofs.Page.Storing

/-!
# Required fields

A submission that proceeds stores an answer to every required field of the page itself: the rule of
a stored answer lets neither null nor the empty text through (`answer_of_required`), and of an
address it asks for the core parts (`hasCoreParts_mergeValue`). Of several choices it asks only that
each is one of the list, so that no choice at all passes where an empty list is what is submitted
(`submitted_nil_of_answer_nil`).
-/

namespace Questionnaire

/-! ## Answers -/

/-- A field that must be answered, and that welcomes no values of its own. -/
structure Component.IsRequired (c : Component) : Prop where
  isForm : c.isForm = true
  isOptional : c.definition.isOptional = false
  allow : c.definition.constraints.allow = none

/-- An address with a text in each of the parts that an address needs. -/
def HasCoreParts (value : Json) : Prop :=
  ∃ address : Fields, value = .obj address ∧
    ∀ part ∈ addressParts, part.core = true →
      ∃ text, address.get? part.key = some (.str text) ∧ text ≠ ""

/-- A part that an address needs is a text that is not empty. -/
theorem text_of_check_part {part : AddressPart} {d : ComponentDefinition} (hcore : part.core = true)
    (hrequired : d.isOptional = false) {name : String} {siblings : Option Fields}
    {value : Option Json}
    (h : (part.rule d).check {} name siblings value = ⟨value, []⟩) :
    ∃ text, value = some (.str text) ∧ text ≠ "" := by
  have hrule : part.rule d =
      (Rule.leaf part.leaf { label := some part.label }).asked true [] := by
    rw [part.rule_eq d, hcore, hrequired]
    rfl
  obtain ⟨c, hleaf, -⟩ := part.leaf_eq_text
  have hfield : ((Rule.leaf (.text c) { label := some part.label }).asked true []).IsField :=
    .one (by rintro ⟨⟩)
  rw [hrule, hleaf] at h
  cases value with
  | none => cases congrArg Checked.failures h
  | some value =>
      obtain ⟨converted, hcheck, hmem | hsettled⟩ :=
        Rule.settled_or_mem_of_check hfield blanks_nil (congrArg Checked.failures h)
      · cases hmem
      · cases h.symm.trans hcheck
        cases hsettled with
        | one hsettled _ =>
            obtain ⟨text, rfl⟩ := hsettled.eq_str
            exact ⟨text, rfl, fun hempty => hsettled.ne_empty (congrArg Json.str hempty)⟩

/-- A required address that its rule leaves alone has its core parts, also when it is merged into an
earlier answer. -/
theorem hasCoreParts_mergeValue {d : ComponentDefinition} (hrequired : d.isOptional = false)
    {value : Json} (h : (Component.single .address d).core.Settled value) (old : Option Json) :
    HasCoreParts (mergeValue old value) := by
  cases h with
  | @members _ _ fields h =>
      obtain ⟨merged, hmerged, hmerges, -⟩ := Page.mergeValue_obj old h.ordered
      refine ⟨merged, hmerged, fun part hpart hcore => ?_⟩
      obtain ⟨text, htext, hne⟩ :=
        text_of_check_part hcore hrequired (h.passes _ (mem_addressKeys d hpart) {} none)
      refine ⟨text, ?_, hne⟩
      rw [hmerges part.key, htext]
      rfl

/-! ## Empty lists -/

theorem not_settled_nil {d : ComponentDefinition} {base : Rule} (hbase : base.IsBase) :
    ¬ (described d base).Settled (.arr []) ∧
      ∀ values, ¬ ((described d base).among values).Settled (.arr []) := by
  obtain ⟨kind, rfl, hkind⟩ := hbase
  obtain ⟨kind', a, hdescribed, hsort, -⟩ := described_leaf d kind {}
  have hleaf : ∀ a, ¬ (Rule.leaf kind' a).Settled (.arr []) := by
    rintro a (⟨h, -⟩ | _)
    cases h.isScalar (Leaf.ne_any_of_sort hsort hkind)
  rw [hdescribed]
  exact ⟨hleaf a, fun values => hleaf _⟩

/-- An empty list answers no field but checkboxes. -/
theorem isCheckboxes_of_settled_nil {c : Component} (hfield : c.IsBuiltinField = true)
    (h : c.core.Settled (.arr [])) : ∃ d list reveals, c = .choice .checkboxes d list reveals := by
  cases c with
  | single kind d =>
      cases kind with
      | text variant => exact absurd h (not_settled_nil variant.isBase_base).1
      | date withTime => exact absurd h (not_settled_nil (isBase_dateBase withTime)).1
      | dateParts withTime => exact absurd h (not_settled_nil (isBase_dateBase withTime)).1
      | address => cases h
      | content _ => cases hfield
      | plain => cases hfield
  | choice variant d list reveals =>
      cases variant with
      | checkboxes => exact ⟨d, list, reveals, rfl⟩
      | _ => exact absurd h ((not_settled_nil list.type.isBase_base).2 list.values)

/-! ## Pages -/

namespace Page

section

variable {page : Page} {payload data : FormData} {answers : State} {c : Component}

/-- The answer to a required field of the page itself is a value that the field's rule leaves
alone. -/
theorem answer_of_required (h : page.validateState (page.toState data) = .ok answers)
    (hc : ⟨c, []⟩ ∈ questions page.components) (hfield : c.IsBuiltinField = true)
    (hrequired : c.IsRequired)
    (hsole : ∀ other ∈ questions page.components, other.name = c.name → other = ⟨c, []⟩) :
    ∃ value, answers.get? c.name = some value ∧ c.core.Settled value := by
  rcases answer_cases h hc hsole hfield hrequired.allow with
    ⟨-, -, hmust⟩ | ⟨given, value, -, hvalue, ⟨-, hwelcome⟩ | hsettled⟩
  · cases hmust.symm.trans (congrArg Bool.not hrequired.isOptional)
  · cases hwelcome.symm.trans hrequired.isOptional
  · exact ⟨value, hvalue, hsettled⟩

/-- A field of the page is answered by an empty list only where an empty list is submitted. -/
theorem submitted_nil_of_answer_nil (hbuiltin : ∀ q ∈ questions page.components,
      q.field.IsBuiltinField = true)
    (hdata : page.validateForm payload = .ok data)
    (hanswers : page.validateState (page.toState data) = .ok answers)
    {variant : ChoiceVariant} {d : ComponentDefinition} {list : ListDefinition}
    {reveals : List (Nat × Json × List Component)}
    (hc : ⟨.choice variant d list reveals, []⟩ ∈ questions page.components)
    (hsole : ∀ other ∈ questions page.components, other.name = d.nameText →
      other = ⟨.choice variant d list reveals, []⟩)
    (hnil : answers.get? d.nameText = some (.arr [])) :
    payload.get? d.nameText = some (.arr []) := by
  obtain ⟨hform, rfl⟩ := accepts_of_validateForm hdata
  obtain ⟨hstate, rfl⟩ := accepts_of_validateState hanswers
  obtain ⟨_, _, _, _, _, _, houtcome⟩ := Side.exists_outcome hstate
    (fun q hq _ => isField_own_state (isForm_of_mem_questions _ hq) (hbuiltin q hq)) hnil
  have hstored := get?_toState (Side.form.converted page.components payload) hc hsole
  have hstored := hstored.symm.trans houtcome.eq_of_nil
  split at hstored
  · obtain ⟨items, hgiven, hlength⟩ := exists_items_of_storedChoice (Option.some.inj hstored)
    obtain rfl := List.eq_nil_of_length_eq_zero hlength.symm
    obtain ⟨_, _, _, _, _, _, houtcome⟩ := Side.exists_outcome hform
      (fun q hq _ => isField_own_form (hbuiltin q hq)) hgiven
    exact houtcome.eq_of_nil
  · exact nomatch hstored

end

/-- A submission that proceeds stores an answer to every required field of the page itself: neither
null nor empty, except for an empty list of choices that is submitted as such, and with its core
parts if it is an address. The name of the field must be its own on the page, since of two answers
for one name the later stands. -/
theorem required_answered {page : Page} {definition : PageDefinition}
    {sections : List SectionDefinition} {context : CompileContext} {conditions : Registry}
    {options : Options} {payload : FormData} {store store' : Store} {next : String} {state : State}
    (hcompile : Page.compile definition sections context conditions options = .ok page)
    (hbuiltin : context.types.IsBuiltin)
    (hsubmit : page.submit payload store = (.ok (.proceed next state), store'))
    {c : Component} (hc : c ∈ page.components) (hrequired : c.IsRequired)
    (hname : (stateNames page.components).count c.name = 1) :
    ∃ stored value, page.pageState? state = some stored ∧ stored.get? c.name = some value ∧
      value ≠ .null ∧ value ≠ .str "" ∧
      (value = .arr [] → (∃ d list reveals, c = .choice .checkboxes d list reveals) ∧
        payload.get? c.name = some (.arr [])) ∧
      ∀ d, c = .single .address d → HasCoreParts value := by
  obtain ⟨answers, hanswers, rfl, -⟩ := submit_proceed hsubmit
  obtain ⟨stored, hstored, hmerges, -⟩ :=
    pageState?_merge page store.held (ordered_answers hanswers)
  obtain ⟨data, hdata, hstate⟩ := answers_eq_ok_iff.mp hanswers
  have hquestions := isBuiltinField_of_compileGroup hbuiltin (compileGroup_of_compile hcompile)
  have hq : (⟨c, []⟩ : Question) ∈ questions page.components :=
    mem_questions_iff.mpr ⟨c, hc, self_mem_questions hrequired.isForm⟩
  have hfield : c.IsBuiltinField = true := hquestions _ hq
  have hsole : ∀ other ∈ questions page.components, other.name = c.name → other = ⟨c, []⟩ :=
    fun other hother => eq_of_count_stateNames (q := ⟨c, []⟩) hname hq hother
  obtain ⟨value, hvalue, hsettled⟩ := answer_of_required hstate hq hfield hrequired hsole
  have hmerged := hmerges c.name
  rw [hvalue] at hmerged
  refine ⟨stored, _, hstored, hmerged, ?_, ?_, ?_, ?_⟩
  · exact mergeValue_ne_null _ hsettled.ne_null
  · exact (mergeValue_eq_iff _ rfl).not.mpr hsettled.ne_empty
  · intro hnil
    obtain rfl := (mergeValue_eq_iff _ rfl).mp hnil
    obtain ⟨d, list, reveals, rfl⟩ := isCheckboxes_of_settled_nil hfield hsettled
    exact ⟨⟨d, list, reveals, rfl⟩,
      submitted_nil_of_answer_nil hquestions hdata hstate hq hsole hvalue⟩
  · rintro d rfl
    exact hasCoreParts_mergeValue hrequired.isOptional hsettled _

end Page

/-! ## A parcel -/

/-- Where a parcel goes. -/
def homeField : ComponentDefinition :=
  { type := "UkAddressField", name := some "home", title := some "Home" }

/-- What comes with it. -/
def extrasField : ComponentDefinition :=
  { type := "CheckboxesField", name := some "extras", title := some "Extras",
    options := { list := some "extras" } }

/-- What can come with a parcel. -/
def extrasList : ListDefinition :=
  { name := "extras", title := "Extras", type := .string,
    items := [{ text := "Card", value := .str "card" }] }

/-- A page that asks for both. -/
def parcelPage : Page :=
  ⟨"/parcel", "", none,
    [.single .address homeField, .choice .checkboxes extrasField extrasList []], [], ⟨[], []⟩, {}⟩

/-- The page as it is defined. -/
def parcelDefinition : PageDefinition :=
  { path := "/parcel", components := [homeField, extrasField] }

theorem compile_parcel :
    Page.compile parcelDefinition [] ⟨[extrasList], .builtin, "/parcel"⟩ ⟨[], []⟩ {} =
      .ok parcelPage := rfl

/-- Data that is submitted with an address, and with further inputs after those of the address. -/
def addressedData (rest : FormData) : FormData :=
  rest ++ [("home__locality", .str ""), ("home__postcode", .str "SW1A 1AA"),
    ("home__premises", .str "1"), ("home__street", .str ""), ("home__town", .str "London")]

/-- The address that is stored of such data. -/
def londonAddress : Json :=
  .obj [("locality", .str ""), ("postcode", .str "SW1A 1AA"), ("premises", .str "1"),
    ("street", .str ""), ("town", .str "London")]

/-- The address of a parcel is stored with its core parts. -/
theorem Page.required_answered_parcel :
    ∃ stored value, parcelPage.pageState?
        [("extras", .arr [.str "card"]), ("home", londonAddress)] = some stored ∧
      stored.get? "home" = some value ∧ HasCoreParts value := by
  have hanswers : parcelPage.answers (addressedData [("extras", .arr [.str "card"])]) =
      .ok [("extras", .arr [.str "card"]), ("home", londonAddress)] := by
    decide +kernel
  obtain ⟨stored, value, hstored, hvalue, -, -, -, haddress⟩ := required_answered compile_parcel
    TypeRegistry.isBuiltin_builtin (submit_inMemory hanswers []) (List.mem_cons_self ..)
    ⟨rfl, rfl, rfl⟩ (by decide +kernel)
  exact ⟨stored, value, hstored, hvalue, haddress _ rfl⟩

/-- Whether a page of built-in fields proceeds with a payload and stores the given value for a
required field. -/
def StoresForRequired (definition : PageDefinition) (lists : List ListDefinition)
    (payload : FormData) (key : String) (value : Json) : Prop :=
  ∃ page next state store,
    Page.compile definition [] ⟨lists, .builtin, definition.path⟩ ⟨[], []⟩ {} = .ok page ∧
      page.submit payload (.inMemory []) = (.ok (.proceed next state), store) ∧
      (∃ c ∈ page.components, c.IsRequired ∧ c.name = key) ∧
      (page.stored state).get? key = some value

/-- A submission that proceeds may leave a required field with an empty list for an answer. -/
theorem exists_required_unanswered :
    StoresForRequired parcelDefinition [extrasList] (addressedData [("extras", .arr [])]) "extras"
      (.arr []) := by
  have hempty : parcelPage.answers (addressedData [("extras", .arr [])]) =
      .ok [("extras", .arr []), ("home", londonAddress)] := by
    decide +kernel
  refine ⟨parcelPage, _, _, _, compile_parcel, Page.submit_inMemory hempty [], ?_, by decide +kernel⟩
  exact ⟨.choice .checkboxes extrasField extrasList [], .tail _ (.head _), ⟨rfl, rfl, rfl⟩, rfl⟩

/-- An optional field of the address's name, which has other inputs. -/
def namesakeField : ComponentDefinition :=
  { type := "TextField", name := some "home", title := some "Home",
    options := { required := some false } }

/-- A page that asks for the address and has this field after it. -/
def namesakePage : Page :=
  ⟨"/parcel", "", none,
    [.single .address homeField, .single (.text .line) namesakeField], [], ⟨[], []⟩, {}⟩

/-- A required field is left without an answer by the answer to a later field of the same name. -/
theorem required_unanswered_of_namesake :
    StoresForRequired { path := "/parcel", components := [homeField, namesakeField] } []
      (addressedData [("home", .str "")]) "home" .null := by
  have hnull : namesakePage.answers (addressedData [("home", .str "")]) =
      .ok [("home", .null)] := by
    decide +kernel
  refine ⟨namesakePage, _, _, _, rfl, Page.submit_inMemory hnull [], ?_, by decide +kernel⟩
  exact ⟨.single .address homeField, .head _, ⟨rfl, rfl, rfl⟩, rfl⟩

end Questionnaire
