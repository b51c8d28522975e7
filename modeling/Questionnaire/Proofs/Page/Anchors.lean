import Questionnaire.Proofs.Component.Anchors
import Questionnaire.Proofs.Component.Places
import Questionnaire.Proofs.Page.Submitting

/-!
# Where the errors of a page point

A page that is shown again lists what is wrong with the submission, and each entry points at the id
that is made of the failure's place. That of a field, of an input and of a part of an address is on
the page. An item of a choice of several has no id, nor has a member that addresses do not have, and
so an entry that is about one points nowhere, or at a field that happens to have the name
(`Page.anchored_iff`).
-/

namespace Questionnaire

/-- A failure found inside an answer, at a place that has no input: at an item of a choice of
several, or at a member that addresses do not have. -/
inductive Page.FailsInside (page : Page) (failure : Failure) : Prop
  | item {q : Question} (hq : q ∈ questions page.components)
      (hseveral : q.field.choosesSeveral = true) (i : Nat)
      (hpath : failure.path = [q.name, toString i])
  | member {q : Question} {d : ComponentDefinition} (hq : q ∈ questions page.components)
      (haddress : q.field = .single .address d) (key : String)
      (hpath : failure.path = [q.name, key]) (hunknown : failure.fault = .unknownKey)

/-! ## The names of places -/

namespace Failure

variable {failure : Failure} {key part : String}

theorem fieldName_of_path_singleton (h : failure.path = [key]) : failure.fieldName = key := by
  rw [fieldName, h]
  rfl

theorem fieldName_of_path_pair (h : failure.path = [key, part]) :
    failure.fieldName = partName key part := by
  rw [fieldName, h]
  rfl

end Failure

theorem getLast?_partName {key : String} (hkey : key.toList ≠ []) (field : String) :
    (partName field key).toList.getLast? = key.toList.getLast? := by
  rw [partName, String.toList_append, List.getLast?_append_of_ne_nil _ hkey]

/-- The name of a part that does not end with a digit is not that of an item's place. -/
theorem partName_ne_of_getLast? {key : String}
    (h : key.toList.getLast?.any (!·.isDigit) = true) (field name : String) (i : Nat) :
    partName field key ≠ partName name (toString i) := by
  intro heq
  obtain ⟨c, hlast, hdigit⟩ := (Option.any_eq_true _ _).mp h
  have hnumber := getLast?_partName (toString_toList_ne_nil i) name
  have hkey : key.toList ≠ [] := by
    rintro hnil
    rw [hnil] at hlast
    exact nomatch hlast
  rw [← heq, getLast?_partName hkey, hlast] at hnumber
  have hmem : c.isDigit = true := isDigit_of_mem_toString c (List.mem_of_getLast? hnumber.symm)
  rw [hmem] at hdigit
  exact nomatch hdigit

theorem datePart_ne_item {withTime : Bool} {part : DatePart} (h : part ∈ datePartsOf withTime)
    (field name : String) (i : Nat) : partName field part.key ≠ partName name (toString i) := by
  have hletters : ∀ part ∈ datePartsOf withTime,
      part.key.toList.getLast?.any (!·.isDigit) = true := by
    cases withTime <;> decide
  exact partName_ne_of_getLast? (hletters part h) field name i

theorem addressPart_ne_item {part : AddressPart} (h : part ∈ addressParts) (field name : String)
    (i : Nat) : partName field part.key ≠ partName name (toString i) := by
  have hletters : ∀ part ∈ addressParts, part.key.toList.getLast?.any (!·.isDigit) = true := by
    decide
  exact partName_ne_of_getLast? (hletters part h) field name i

/-- The name of an item's place is that of no part, so a field has it as an id only if it has it as
its name. -/
theorem Component.hasId_item_iff {c : Component} (hfield : c.IsBuiltinField = true) {name : String}
    {i : Nat} : c.HasId (partName name (toString i)) ↔ c.name = partName name (toString i) := by
  refine ⟨fun h => ?_, fun h => .inl h.symm⟩
  rcases h with h | h
  · exact h.symm
  · cases c with
    | single kind d =>
        cases kind with
        | text variant => exact (List.mem_singleton.mp h).symm
        | date withTime => exact (List.mem_singleton.mp h).symm
        | dateParts withTime =>
            have hnames := names_parts (fun part : DatePart => part.rule d)
              (nodup_datePartsOf withTime) d.nameText
            obtain ⟨part, hpart, heq⟩ := List.mem_map.mp (hnames ▸ h)
            exact absurd heq (datePart_ne_item hpart d.nameText name i)
        | address =>
            have hnames := names_parts (fun part : AddressPart => part.rule d) nodup_addressParts
              d.nameText
            obtain ⟨part, hpart, heq⟩ := List.mem_map.mp (hnames ▸ h)
            exact absurd heq (addressPart_ne_item hpart d.nameText name i)
        | content variant => cases hfield
        | plain => cases hfield
    | choice variant d list reveals => exact (List.mem_singleton.mp h).symm

/-! ## Places of failures -/

theorem key_eq_name_of_choosesSeveral {c : Component} (h : c.choosesSeveral = true) {key : String}
    {rule : Rule} (hrule : (key, rule) ∈ Side.form.own c) : key = c.name := by
  cases c with
  | single kind d => cases h
  | choice variant d list reveals => exact (Prod.mk.inj (List.mem_singleton.mp hrule)).1

section

variable {page : Page} {failure : Failure}
  (hfields : ∀ q ∈ questions page.components, q.field.IsBuiltinField = true)

include hfields

/-- What is wrong with submitted data has the name of an input, or is found inside one. -/
theorem Page.place_of_mem_form {data : FormData}
    (h : failure ∈ (Rule.checkKeys {} (Side.form.groupKeys page.components) data).2) :
    (∃ q ∈ questions page.components, q.field.HasId failure.fieldName) ∨
      page.FailsInside failure := by
  obtain ⟨q, hq, key, own, hown, inner, hinner, rfl⟩ :=
    Side.form.exists_question_of_mem_checkKeys h
  rcases path_of_mem_own_form (hfields q hq) hown hinner with hpath | ⟨hseveral, i, hpath⟩
  · refine Or.inl ⟨q, hq, Or.inr ?_⟩
    rw [Failure.fieldName_of_path_singleton (congrArg (key :: ·) hpath)]
    exact List.mem_map_of_mem hown
  · obtain rfl := key_eq_name_of_choosesSeveral hseveral hown
    exact Or.inr (.item hq hseveral i (congrArg (q.name :: ·) hpath))

/-- What is wrong with the stored answers has the name of a field or of a part of one, or is found
inside an answer. -/
theorem Page.place_of_mem_state {state : State}
    (h : failure ∈ (Rule.checkKeys {} (Side.state.groupKeys page.components) state).2) :
    (∃ q ∈ questions page.components, q.field.HasId failure.fieldName) ∨
      page.FailsInside failure := by
  obtain ⟨q, hq, inner, hinner, rfl⟩ := exists_question_of_mem_state h
  rcases path_of_mem_ownState (hfields q hq) hinner with
    hpath | ⟨hseveral, i, hpath⟩ | ⟨d, haddress, part, hpath, hpart | hunknown⟩
  · refine Or.inl ⟨q, hq, Or.inl ?_⟩
    exact Failure.fieldName_of_path_singleton (congrArg (q.name :: ·) hpath)
  · exact Or.inr (.item hq hseveral i (congrArg (q.name :: ·) hpath))
  · refine Or.inl ⟨q, hq, Or.inr ?_⟩
    rw [Failure.fieldName_of_path_pair (congrArg (q.name :: ·) hpath)]
    obtain ⟨known, hknown, rfl⟩ := List.mem_map.mp hpart
    rw [Question.name, haddress]
    show partName d.nameText known.key ∈ (Keys.ofList _).names
    rw [names_parts (fun part : AddressPart => part.rule d) nodup_addressParts]
    exact List.mem_map_of_mem hknown
  · exact Or.inr (.member hq haddress part (congrArg (q.name :: ·) hpath) hunknown)

end

/-! ## Submissions -/

namespace Page

variable {page : Page}

theorem id_of_asHeading? {field heading : FieldView} {sectionTitle : Option String} {text : String}
    (h : field.asHeading? sectionTitle = some (heading, text)) : heading.id = field.id := by
  unfold FieldView.asHeading? at h
  split at h
  · cases h
    rfl
  · cases h
    rfl
  · cases h

/-- A label that becomes the heading of the page leaves the ids as they are. -/
theorem viewIds_of_promoteHeading? {views promoted : List ComponentView} {text : String}
    (h : page.promoteHeading? views = some (promoted, text)) : viewIds promoted = viewIds views := by
  unfold promoteHeading? at h
  split at h
  · split at h
    · obtain ⟨⟨field, title⟩, hheading, heq⟩ := Option.map_eq_some_iff.mp h
      obtain ⟨rfl, rfl⟩ := Prod.mk.inj heq
      rw [viewIds, viewIds, ids_withField _ (id_of_asHeading? hheading)]
    · cases h
  · cases h

/-- The ids of a page are those of what its components show. -/
theorem viewIds_view (page : Page) (data : FormData) (errors : Option ErrorSummary) :
    viewIds (page.view data errors).components =
      viewIds (componentViews data errors page.components) := by
  unfold view
  dsimp only
  split
  · next views text hpromote => exact viewIds_of_promoteHeading? hpromote
  · rfl

/-- The failures of a submission are found at fields and inputs of the page, or inside answers. -/
theorem place_of_failsWith (hfields : ∀ q ∈ questions page.components, q.field.IsBuiltinField = true)
    {payload : FormData} (hkeys : ∀ member ∈ payload, member.1 ∈ (formKeys page.components).names)
    {failures : List Failure} (h : page.FailsWith payload failures) :
    ∀ failure ∈ failures, (∃ q ∈ questions page.components, q.field.HasId failure.fieldName) ∨
      page.FailsInside failure := by
  intro failure hfailure
  cases h with
  | form h =>
      obtain ⟨-, rfl⟩ := Rule.validate_ofKeys_eq_error_iff.mp h
      rw [← Side.groupKeys_form] at hfailure hkeys
      rw [Rule.checkUnknown_of_has fun member hmember =>
        Keys.has_iff_mem_names.mpr (hkeys member hmember), List.append_nil] at hfailure
      exact place_of_mem_form hfields hfailure
  | state hdata h =>
      obtain ⟨-, rfl⟩ := Rule.validate_ofKeys_eq_error_iff.mp h
      rw [← Side.groupKeys_state] at hfailure
      rw [Rule.checkUnknown_of_has (page.has_of_mem_toState _), List.append_nil] at hfailure
      exact place_of_mem_state hfields hfailure

/-- An entry of the errors of a page points at an id on the page unless its failure is found inside an
answer. At the place of an item it points at an id only if a field happens to have the name that is
made of the place, and at that of a member that addresses do not have only if a field or an input
has. -/
theorem anchored_iff {definition : PageDefinition} {sections : List SectionDefinition}
    {context : CompileContext} {conditions : Registry} {options : Options} {payload : FormData}
    {store store' : Store} {view : PageView}
    (hcompile : Page.compile definition sections context conditions options = .ok page)
    (hbuiltin : context.types.IsBuiltin)
    (hkeys : ∀ member ∈ payload, member.1 ∈ (formKeys page.components).names)
    (hsubmit : page.submit payload store = (.ok (.rerender view), store')) :
    ∃ summary, view.errors = some summary ∧ ∀ failure ∈ summary.failures,
      (¬ page.FailsInside failure → failure.fieldName ∈ viewIds view.components) ∧
      (∀ q ∈ questions page.components, q.field.choosesSeveral = true → ∀ i : Nat,
        failure.path = [q.name, toString i] →
          (failure.fieldName ∈ viewIds view.components ↔
            ∃ other ∈ questions page.components, other.name = partName q.name (toString i))) ∧
      ∀ q ∈ questions page.components, ∀ d, q.field = .single .address d → ∀ key,
        failure.path = [q.name, key] → failure.fault = .unknownKey →
          (failure.fieldName ∈ viewIds view.components ↔
            ∃ other ∈ questions page.components, other.field.HasId (partName q.name key)) := by
  have hgroup := compileGroup_of_compile hcompile
  have hfields := isBuiltinField_of_compileGroup hbuiltin hgroup
  have hindexed := revealsByIndex_of_compileGroup hgroup
  obtain ⟨summary, hanswers, rfl⟩ := submit_rerender hsubmit
  obtain ⟨-, hfails⟩ := failsWith_of_answers hanswers
  refine ⟨summary, errors_view payload hfails.ne_nil, fun failure hfailure => ?_⟩
  rw [viewIds_view, mem_viewIds_componentViews_iff _ _ page.components failure.fieldName
    fun q hq => ⟨hfields q hq, hindexed q hq⟩]
  refine ⟨?_, fun q hq _ i hpath => ?_, fun q hq d _ key hpath _ => ?_⟩
  · exact (place_of_failsWith hfields hkeys hfails failure hfailure).resolve_right
  · rw [Failure.fieldName_of_path_pair hpath]
    exact exists_congr fun other => and_congr_right fun hother =>
      Component.hasId_item_iff (hfields other hother)
  · rw [Failure.fieldName_of_path_pair hpath]

end Page

/-! ### A reader, and what one reads about -/

/-- The topics to choose from. -/
def readingList : ListDefinition :=
  { name := "topics", title := "Topics", type := .string,
    items := [{ text := "Rail", value := .str "rail" }, { text := "Roads", value := .str "roads" }] }

/-- The reader's name. -/
def readerField : ComponentDefinition :=
  { type := "TextField", name := some "reader", title := some "Reader" }

/-- What one reads about, which may be several topics. -/
def readingField : ComponentDefinition :=
  { type := "CheckboxesField", name := some "topics", title := some "Topics",
    options := { list := some "topics" } }

/-- The page of a reader. -/
def readerPage : Page :=
  ⟨"/reader", "", none,
    [.single (.text .line) readerField, .choice .checkboxes readingField readingList []],
    [], ⟨[], []⟩, {}⟩

theorem compile_reader :
    Page.compile { path := "/reader", components := [readerField, readingField] } []
      ⟨[readingList], .builtin, "/reader"⟩ ⟨[], []⟩ {} = .ok readerPage := rfl

/-- No name, and a topic that is not in the list. -/
def readerData : FormData :=
  [("reader", .str ""), ("topics", .arr [.str "rail", .str "moon"])]

/-- What is wrong with that: the name, and the second of the topics. -/
def readerErrors : ErrorSummary :=
  ⟨({} : Options).errorSummaryTitle,
    [⟨["reader"], "Reader", .emptyText⟩,
      ⟨["topics", "1"], "Topics", .notAmong [.str "rail", .str "roads"]⟩]⟩

/-- The entry for the name points at its field, the entry for the topic at nothing. -/
theorem Page.anchored_iff_reader :
    ∃ view store, readerPage.submit readerData (.inMemory []) = (.ok (.rerender view), store) ∧
      view.errors = some readerErrors ∧
        "reader" ∈ viewIds view.components ∧ "topics__1" ∉ viewIds view.components := by
  have hanswers : readerPage.answers readerData = .error readerErrors := by decide +kernel
  have hsubmit : readerPage.submit readerData (.inMemory []) =
      (.ok (.rerender (readerPage.view readerData (some readerErrors))), .inMemory []) := by
    rw [submit, hanswers]
  obtain ⟨summary, hsummary, hanchored⟩ := anchored_iff compile_reader
    TypeRegistry.isBuiltin_builtin (by decide +kernel) hsubmit
  have herrors : (readerPage.view readerData (some readerErrors)).errors = some readerErrors := rfl
  obtain rfl := Option.some.inj (herrors.symm.trans hsummary)
  obtain ⟨hname, -, -⟩ := hanchored _ (.head _)
  obtain ⟨-, hitem, -⟩ := hanchored _ (.tail _ (.head _))
  refine ⟨_, _, hsubmit, herrors, hname ?_, fun hid => ?_⟩
  · intro hinside
    cases hinside with
    | item _ _ _ hpath => exact nomatch congrArg List.length hpath
    | member _ _ _ hpath _ => exact nomatch congrArg List.length hpath
  · have htopics := (hitem ⟨.choice .checkboxes readingField readingList [], []⟩ (.tail _ (.head _))
      rfl 1 rfl).mp hid
    have hnames : ∀ q ∈ questions readerPage.components, q.name ≠ partName "topics" (toString 1) := by
      decide +kernel
    obtain ⟨other, hother, heq⟩ := htopics
    exact hnames other hother heq

end Questionnaire
