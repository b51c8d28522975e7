import Questionnaire.Definition.Writing
import Questionnaire.Json.Fields
import Questionnaire.Proofs.Definition.Structured

/-!
# Definitions that are written and read again

What is written for a well-formed part is read as that part. It is also structured, but for one
thing: a page without a title or without a section has null there, and null is no text
(`PageDefinition.issues_toJson_iff`). So the definition that is written has no structural issue
exactly when all its pages have both (`FormDefinition.issues_toJson_iff`).
-/

namespace Questionnaire

/-! ## Members that are written -/

namespace Fields

@[simp] theorem get?_ofOptions_nil (key : String) : (ofOptions []).get? key = none := rfl

@[simp] theorem get?_ofList_nil (key : String) : (ofList []).get? key = none := rfl

theorem get?_ofOptions_cons (k key : String) (value? : Option Json)
    (rest : List (String × Option Json)) :
    (ofOptions ((k, value?) :: rest)).get? key =
      ((ofOptions rest).get? key).or (if k = key then value? else none) := by
  unfold ofOptions
  cases value? with
  | none => simp
  | some value => exact get?_ofList_cons ..

theorem mem_keys_of_mem_ofList {members : List (String × Json)} {member : String × Json}
    (h : member ∈ ofList members) : member.1 ∈ members.map (·.1) :=
  List.mem_map_of_mem ((mem_of_mem_extend h).resolve_right List.not_mem_nil)

theorem mem_keys_of_mem_ofOptions {members : List (String × Option Json)}
    {member : String × Json} (h : member ∈ ofOptions members) :
    member.1 ∈ members.map (·.1) := by
  obtain ⟨written, hwritten, heq⟩ := List.mem_map.mp (mem_keys_of_mem_ofList h)
  obtain ⟨entry, hentry, hvalue⟩ := List.mem_filterMap.mp hwritten
  obtain ⟨value, -, rfl⟩ := Option.map_eq_some_iff.mp hvalue
  exact List.mem_map.mpr ⟨entry, hentry, heq⟩

end Fields

namespace Structure

variable {fields : Fields} {place : Place} {key : String}

theorem keyIssues_ofList {members : List (String × Json)} {allowed : List String}
    (h : members.map (·.1) = allowed) : keyIssues allowed (Fields.ofList members) place = [] :=
  keyIssues_eq_nil_iff.mpr fun _ hmember => h ▸ Fields.mem_keys_of_mem_ofList hmember

theorem keyIssues_ofOptions {members : List (String × Option Json)} {allowed : List String}
    (h : members.map (·.1) = allowed) : keyIssues allowed (Fields.ofOptions members) place = [] :=
  keyIssues_eq_nil_iff.mpr fun _ hmember => h ▸ Fields.mem_keys_of_mem_ofOptions hmember

theorem slots?_ofList {members : List (String × Json)} {allowed : List String}
    (h : members.map (·.1) = allowed) :
    slots? .refused allowed (.obj (Fields.ofList members)) = some (Fields.ofList members).get? := by
  have hkeys : keyIssues allowed (Fields.ofList members) [] = [] := keyIssues_ofList h
  exact slots?_of_keyIssues hkeys

theorem slots?_ofOptions {members : List (String × Option Json)} {allowed : List String}
    (h : members.map (·.1) = allowed) :
    slots? .refused allowed (.obj (Fields.ofOptions members)) =
      some (Fields.ofOptions members).get? := by
  have hkeys : keyIssues allowed (Fields.ofOptions members) [] = [] := keyIssues_ofOptions h
  exact slots?_of_keyIssues hkeys

section

variable {α : Type} {visit : Fields → Place → List StructureIssue} {write : α → Json}
  {parts : List α}

/-- A written array is in order when what it is made of is. -/
theorem eachIssues_written_iff {C : α → Prop} (h : fields.get? key = some (.arr (parts.map write)))
    (hparts : ∀ part ∈ parts, ∀ place, objectIssues visit (write part) place = [] ↔ C part) :
    eachIssues visit fields place key = [] ↔ ∀ part ∈ parts, C part := by
  have hzip : eachIssues visit fields place key = [] ↔ ∀ entry ∈ (parts.map write).zipIdx,
      objectIssues visit entry.1 (place ++ [.key key, .index entry.2]) = [] := by
    simp [eachIssues_eq_nil_iff, h]
  rw [hzip]
  constructor
  · intro hall part hpart
    obtain ⟨i, hi⟩ := List.mem_iff_getElem?.mp (List.mem_map_of_mem (f := write) hpart)
    exact (hparts part hpart _).mp (hall (write part, i) (List.mem_zipIdx_iff_getElem?.mpr hi))
  · rintro hall ⟨item, i⟩ hentry
    obtain ⟨part, hpart, rfl⟩ :=
      List.mem_map.mp (List.mem_of_getElem? (List.mem_zipIdx_iff_getElem?.mp hentry))
    exact (hparts part hpart _).mpr (hall part hpart)

theorem eachIssues_written (h : fields.get? key = some (.arr (parts.map write)))
    (hparts : ∀ part ∈ parts, ∀ place, objectIssues visit (write part) place = []) :
    eachIssues visit fields place key = [] :=
  (eachIssues_written_iff (C := fun _ => True) h fun part hpart place => by
    simp [hparts part hpart place]).mpr fun _ _ => trivial

theorem namesIn_written {name : α → String} {nameKey : String}
    (h : fields.get? key = some (.arr (parts.map write)))
    (hname : ∀ part, textIn? nameKey (write part) = some (name part)) :
    namesIn fields key nameKey = (parts.map name).zipIdx := by
  have hitems : itemsOf fields key = parts.map write := by simp [itemsOf, h, Json.arr?]
  refine namesIn_eq ?_
  rw [hitems, List.forall₂_map_left_iff]
  exact List.forall₂_same.mpr fun part _ => hname part

end

end Structure

/-! ## Members that are read again -/

section

variable {α : Type} {read : Json → Option α} {write : α → Json}

/-- The reading of a member that may be missing or null, by its value. -/
def readOptional (read : Json → Option α) : Option Json → Option (Option α)
  | none => some none
  | some .null => some none
  | some value => (read value).map some

theorem Slots.optional_eq (slots : Slots) (field : String) (read : Json → Option α) :
    slots.optional field read = readOptional read (slots field) := rfl

/-- A member that was written if it was set is read as what it was. -/
theorem readOptional_map {a : Option α}
    (h : ∀ x, a = some x → write x ≠ .null ∧ read (write x) = some x) :
    readOptional read (a.map write) = some a := by
  cases a with
  | none => rfl
  | some x =>
      obtain ⟨hnull, hx⟩ := h x rfl
      rw [Option.map_some]
      unfold readOptional
      split
      · next heq => exact nomatch heq
      · next heq => exact absurd (Option.some.inj heq) hnull
      · next heq => rw [← Option.some.inj heq, hx, Option.map_some]

theorem readable_map {a : Option α} (h : ∀ x, a = some x → read (write x) = some x) :
    Readable read (a.map write) := by
  intro value hvalue
  obtain ⟨x, hx, rfl⟩ := Option.map_eq_some_iff.mp hvalue
  exact ⟨x, h x hx⟩

@[simp] theorem readOptional_text (text : Option String) :
    readOptional Json.str? (text.map .str) = some text :=
  readOptional_map fun _ _ => ⟨nofun, rfl⟩

@[simp] theorem readable_text (text : Option String) : Readable Json.str? (text.map .str) :=
  readable_map fun _ _ => rfl

@[simp] theorem readOptional_boolean (b : Option Bool) :
    readOptional readBool? (b.map .bool) = some b :=
  readOptional_map fun _ _ => ⟨nofun, rfl⟩

@[simp] theorem readable_boolean (b : Option Bool) : Readable readBool? (b.map .bool) :=
  readable_map fun _ _ => rfl

@[simp] theorem readOptional_number (x : Option Binary64) :
    readOptional readNumber? (x.map floatJson) = some x :=
  readOptional_map fun _ _ => ⟨nofun, rfl⟩

@[simp] theorem readable_number (x : Option Binary64) : Readable readNumber? (x.map floatJson) :=
  readable_map fun _ _ => rfl

theorem readList?_map {parts : List α} (h : ∀ part ∈ parts, read (write part) = some part) :
    readList? read (.arr (parts.map write)) = some parts := by
  refine mapM_eq_some_iff.mpr ?_
  rw [List.forall₂_map_left_iff]
  exact List.forall₂_same.mpr h

/-- A count is written as an integer. -/
theorem readCount?_ofNat {n : Nat} (h : n < word32Limit) : readCount? (.ofNat n) = some n := by
  have hword : IsWord (n : Int) := by
    unfold IsWord
    simp only [word32Limit, int64Limit, word64Limit] at h ⊢
    omega
  simp [Json.ofNat, readCount?, Number.ofInt, hword, Number.nat?, Option.filter, h]

end

/-! ## Parts that are written -/

open Structure

namespace ComponentOptions

variable {options : ComponentOptions} (h : options.WellFormed)

include h

theorem ofJson?_toJson : ofJson? options.toJson = some options := by
  have hrows : readOptional readCount? (options.rows.map .ofNat) = some options.rows :=
    readOptional_map fun n hn => ⟨nofun, readCount?_ofNat (h.rows_lt n hn)⟩
  simp [ofJson?, toJson, Slots.optional_eq, Fields.get?_ofOptions_cons, hrows]

theorem issues_toJson (place : Place) : objectIssues optionsIssues options.toJson place = [] := by
  have hrows : Readable readCount? (options.rows.map .ofNat) :=
    readable_map fun n hn => readCount?_ofNat (h.rows_lt n hn)
  simp [toJson, optionsIssues, booleanIssues_eq_nil_iff,
    optionalTextIssues_eq_nil_iff, countIssues_eq_nil_iff, Fields.get?_ofOptions_cons, hrows]

end ComponentOptions

namespace AnswerConstraints

variable {constraints : AnswerConstraints}

theorem ofJson?_toJson (h : constraints.WellFormed) :
    ofJson? constraints.toJson = some constraints := by
  have hallow : readOptional some constraints.allow = some constraints.allow := by
    have hset : readOptional some (constraints.allow.map id) = some constraints.allow :=
      readOptional_map fun value hvalue =>
        ⟨fun hnull => h.allow_ne_null (hvalue.trans (congrArg some hnull)), rfl⟩
    rwa [Option.map_id] at hset
  simp [ofJson?, toJson, Slots.optional_eq, Fields.get?_ofOptions_cons, hallow]

theorem issues_toJson (place : Place) :
    objectIssues constraintsIssues constraints.toJson place = [] := by
  simp [toJson, constraintsIssues, booleanIssues_eq_nil_iff,
    numberIssues_eq_nil_iff, Fields.get?_ofOptions_cons]

end AnswerConstraints

namespace ComponentDefinition

variable {d : ComponentDefinition} (h : d.WellFormed)

include h

theorem ofJson?_toJson : ofJson? d.toJson = some d := by
  simp [ofJson?, toJson, slots?_ofOptions, Slots.optional_eq, Slots.required, Slots.withDefault,
    Fields.get?_ofOptions_cons, ComponentOptions.ofJson?_toJson h.options,
    AnswerConstraints.ofJson?_toJson h.constraints]

theorem issues_toJson (place : Place) : objectIssues componentIssues d.toJson place = [] := by
  simp [toJson, componentIssues, keyIssues_ofOptions, textIssues_eq_nil_iff,
    optionalTextIssues_eq_nil_iff, insideIssues_eq_nil_iff, Fields.get?_ofOptions_cons,
    ComponentOptions.issues_toJson h.options, AnswerConstraints.issues_toJson]

end ComponentDefinition

section

variable {components : List ComponentDefinition} (h : ∀ d ∈ components, d.WellFormed)

include h

theorem readList?_components :
    readList? ComponentDefinition.ofJson? (.arr (components.map ComponentDefinition.toJson)) =
      some components :=
  readList?_map fun d hd => ComponentDefinition.ofJson?_toJson (h d hd)

theorem componentsIssues_written {fields : Fields} {place : Place}
    (hget : fields.get? "components" =
      some (.arr (components.map ComponentDefinition.toJson))) :
    componentsIssues fields place = [] :=
  eachIssues_written hget fun d hd => ComponentDefinition.issues_toJson (h d hd)

theorem readRevealed?_revealedJson : readRevealed? (revealedJson components) = some components := by
  simp [readRevealed?, revealedJson, slots?, Slots.withDefault, Fields.get?_cons,
    readList?_components h]

theorem issues_revealedJson (place : Place) :
    objectIssues revealIssues (revealedJson components) place = [] := by
  simp [revealedJson, revealIssues, keyIssues, componentsIssues_written h,
    Fields.get?_cons]

end

namespace ListItem

variable {type : ListType} {item : ListItem} (h : item.WellFormed type)

include h

theorem ofJson?_toJson : ofJson? item.toJson = some item := by
  have hrevealed : readOptional readRevealed? (item.revealed.map revealedJson) =
      some item.revealed :=
    readOptional_map fun components hc =>
      ⟨nofun, readRevealed?_revealedJson (h.revealed components hc)⟩
  simp [ofJson?, toJson, slots?_ofOptions, Slots.optional_eq, Slots.required,
    Fields.get?_ofOptions_cons, hrevealed]

theorem issues_toJson (place : Place) :
    objectIssues (itemIssues (some type)) item.toJson place = [] := by
  have hrevealed : ∀ components, item.revealed = some components → ∀ place,
      objectIssues revealIssues (revealedJson components) place = [] :=
    fun components hc => issues_revealedJson (h.revealed components hc)
  simp [toJson, itemIssues, valueIssues, keyIssues_ofOptions, textIssues_eq_nil_iff,
    optionalTextIssues_eq_nil_iff, missingIssues_eq_nil_iff, memberIssues_eq_nil_iff,
    insideIssues_eq_nil_iff, Fields.get?_ofOptions_cons, h.admits]
  exact fun components hc => hrevealed components hc _

end ListItem

theorem ListType.ofName?_name (type : ListType) : ListType.ofName? type.name = some type := by
  cases type <;> decide

namespace ListDefinition

variable {list : ListDefinition} (h : list.WellFormed)

include h

theorem ofJson?_toJson : ofJson? list.toJson = some list := by
  have hitems : readList? ListItem.ofJson? (.arr (list.items.map ListItem.toJson)) =
      some list.items :=
    readList?_map fun item hitem => ListItem.ofJson?_toJson (h.items item hitem)
  simp [ofJson?, toJson, slots?_ofList, Slots.required, Fields.get?_ofList_cons,
    ListType.ofJson?, ListType.ofName?_name, hitems]

theorem issues_toJson (place : Place) : objectIssues listIssues list.toJson place = [] := by
  have hitems (fields : Fields) (hget : fields.get? "items" =
      some (.arr (list.items.map ListItem.toJson))) :
      eachIssues (itemIssues (some list.type)) fields place "items" = [] :=
    eachIssues_written hget fun item hitem => ListItem.issues_toJson (h.items item hitem)
  simp [toJson, listIssues, listTypeIssues, keyIssues_ofList, textIssues_eq_nil_iff,
    missingIssues_eq_nil_iff, Fields.get?_ofList_cons, text?, ListType.ofName?_name,
    hitems]

omit h in
theorem textIn?_toJson : textIn? "name" list.toJson = some list.name := by
  simp [textIn?, toJson, Json.obj?, text?, Fields.get?_ofList_cons]

end ListDefinition

namespace SectionDefinition

variable (s : SectionDefinition)

theorem ofJson?_toJson : ofJson? s.toJson = some s := by
  simp [ofJson?, toJson, slots?_ofList, Slots.required, Fields.get?_ofList_cons]

theorem issues_toJson (place : Place) : objectIssues sectionIssues s.toJson place = [] := by
  simp [toJson, sectionIssues, keyIssues_ofList, textIssues_eq_nil_iff, Fields.get?_ofList_cons]

theorem textIn?_toJson : textIn? "name" s.toJson = some s.name := by
  simp [textIn?, toJson, Json.obj?, text?, Fields.get?_ofList_cons]

end SectionDefinition

namespace ConditionDefinition

variable (condition : ConditionDefinition)

theorem ofJson?_toJson : ofJson? condition.toJson = some condition := by
  simp [ofJson?, toJson, slots?_ofList, Slots.required, Fields.get?_ofList_cons]

theorem issues_toJson (place : Place) :
    objectIssues conditionIssues condition.toJson place = [] := by
  simp [toJson, conditionIssues, keyIssues_ofList, textIssues_eq_nil_iff, Fields.get?_ofList_cons]

end ConditionDefinition

namespace RouteDefinition

variable (route : RouteDefinition)

theorem ofJson?_toJson : ofJson? route.toJson = some route := by
  simp [ofJson?, toJson, slots?_ofOptions, Slots.optional_eq, Slots.required,
    Fields.get?_ofOptions_cons]

theorem issues_toJson (place : Place) : objectIssues routeIssues route.toJson place = [] := by
  simp [toJson, routeIssues, keyIssues_ofOptions, textIssues_eq_nil_iff,
    optionalTextIssues_eq_nil_iff, Fields.get?_ofOptions_cons]

end RouteDefinition

@[simp] theorem readOptional_nullableText (text : Option String) :
    readOptional Json.str? (some (nullableText text)) = some text := by
  cases text <;> rfl

@[simp] theorem str?_nullableText (text : Option String) : (nullableText text).str? = text := by
  cases text <;> rfl

/-- Null is no text. -/
@[simp] theorem readable_nullableText_iff {text : Option String} :
    Readable Json.str? (some (nullableText text)) ↔ text.isSome = true := by
  cases text <;> simp [Readable, nullableText, Json.str?]

theorem pageSectionIssues_written_iff {declared : List String} {sectionName : Option String}
    (hdeclared : ∀ name, sectionName = some name → name ∈ declared) {fields : Fields}
    {place : Place} (hget : fields.get? "section" = some (nullableText sectionName)) :
    pageSectionIssues declared fields place = [] ↔ sectionName.isSome = true := by
  rw [pageSectionIssues, List.append_eq_nil_iff, optionalTextIssues_eq_nil_iff, hget,
    readable_nullableText_iff, text?, hget]
  cases sectionName with
  | none => simp
  | some name => simp [hdeclared name rfl]

namespace PageDefinition

variable {declared : List String} {page : PageDefinition} (h : page.WellFormed declared)

include h

theorem ofJson?_toJson : ofJson? page.toJson = some page := by
  have hroutes : readList? RouteDefinition.ofJson? (.arr (page.routes.map RouteDefinition.toJson)) =
      some page.routes :=
    readList?_map fun route _ => RouteDefinition.ofJson?_toJson route
  simp [ofJson?, toJson, slots?_ofList, Slots.optional_eq, Slots.required, Slots.withDefault,
    Fields.get?_ofList_cons, readList?_components h.components, hroutes]

theorem issues_toJson_iff {place : Place} :
    objectIssues (pageIssues declared) page.toJson place = [] ↔
      page.title.isSome = true ∧ page.sectionName.isSome = true := by
  have hcomponents (fields : Fields) (hget : fields.get? "components" =
      some (.arr (page.components.map ComponentDefinition.toJson))) :
      componentsIssues fields place = [] :=
    componentsIssues_written h.components hget
  have hroutes (fields : Fields) (hget : fields.get? "next" =
      some (.arr (page.routes.map RouteDefinition.toJson))) :
      eachIssues routeIssues fields place "next" = [] :=
    eachIssues_written hget fun route _ => RouteDefinition.issues_toJson route
  have hsection (fields : Fields) (hget : fields.get? "section" =
      some (nullableText page.sectionName)) :
      pageSectionIssues declared fields place = [] ↔ page.sectionName.isSome = true :=
    pageSectionIssues_written_iff h.declared hget
  simp [toJson, pageIssues, pathIssues, keyIssues_ofList, textIssues_eq_nil_iff,
    optionalTextIssues_eq_nil_iff, Fields.get?_ofList_cons, text?, h.path, hcomponents, hroutes,
    hsection]

omit h in
theorem textIn?_toJson : textIn? "path" page.toJson = some page.path := by
  simp [textIn?, toJson, Json.obj?, text?, Fields.get?_ofList_cons]

end PageDefinition

namespace FormDefinition

variable {form : FormDefinition} (h : form.WellFormed)

include h

theorem ofJson?_toJson : ofJson? form.toJson = some form := by
  have hpages : readList? PageDefinition.ofJson? (.arr (form.pages.map PageDefinition.toJson)) =
      some form.pages :=
    readList?_map fun page hpage => PageDefinition.ofJson?_toJson (h.pages page hpage)
  have hsections : readList? SectionDefinition.ofJson?
      (.arr (form.sections.map SectionDefinition.toJson)) = some form.sections :=
    readList?_map fun s _ => SectionDefinition.ofJson?_toJson s
  have hlists : readList? ListDefinition.ofJson? (.arr (form.lists.map ListDefinition.toJson)) =
      some form.lists :=
    readList?_map fun list hlist => ListDefinition.ofJson?_toJson (h.lists list hlist)
  have hconditions : readList? ConditionDefinition.ofJson?
      (.arr (form.conditions.map ConditionDefinition.toJson)) = some form.conditions :=
    readList?_map fun condition _ => ConditionDefinition.ofJson?_toJson condition
  simp [ofJson?, toJson, slots?_ofList, Slots.required, Slots.withDefault, Fields.get?_ofList_cons,
    hpages, hsections, hlists, hconditions]

/-- The definition that is written has no issue when every page has a title and a section. -/
theorem issues_toJson_iff :
    Structure.issues form.toJson = [] ↔
      ∀ page ∈ form.pages, page.title.isSome = true ∧ page.sectionName.isSome = true := by
  obtain ⟨fields, hfields, hkeys, hpages, hsections, hlists, hconditions⟩ :
      ∃ fields : Fields, form.toJson = .obj fields ∧
        keyIssues ["pages", "sections", "lists", "conditions"] fields [] = [] ∧
        fields.get? "pages" = some (.arr (form.pages.map PageDefinition.toJson)) ∧
        fields.get? "sections" = some (.arr (form.sections.map SectionDefinition.toJson)) ∧
        fields.get? "lists" = some (.arr (form.lists.map ListDefinition.toJson)) ∧
        fields.get? "conditions" = some (.arr (form.conditions.map ConditionDefinition.toJson)) := by
    refine ⟨_, rfl, keyIssues_ofList rfl, ?_, ?_, ?_, ?_⟩ <;> simp [Fields.get?_ofList_cons]
  have hnames := namesIn_written hsections SectionDefinition.textIn?_toJson
  have hlistNames := namesIn_written hlists fun list => list.textIn?_toJson
  have hpaths := namesIn_written hpages fun page => page.textIn?_toJson
  have hdeclared : (namesIn fields "sections" "name").map (·.1) = form.sections.map (·.name) := by
    rw [hnames, List.zipIdx_map_fst]
  have hsections : eachIssues sectionIssues fields [] "sections" = [] :=
    eachIssues_written hsections fun s _ => s.issues_toJson
  have hlists : eachIssues listIssues fields [] "lists" = [] :=
    eachIssues_written hlists fun list hlist => ListDefinition.issues_toJson (h.lists list hlist)
  have hconditions : eachIssues conditionIssues fields [] "conditions" = [] :=
    eachIssues_written hconditions fun condition _ => condition.issues_toJson
  have hpresent : missingIssues fields [] "pages" = [] := missingIssues_eq_nil_iff.mpr ⟨_, hpages⟩
  have hpages : eachIssues (pageIssues (form.sections.map (·.name))) fields [] "pages" = [] ↔
      ∀ page ∈ form.pages, page.title.isSome = true ∧ page.sectionName.isSome = true :=
    eachIssues_written_iff hpages fun page hpage _ =>
      PageDefinition.issues_toJson_iff (h.pages page hpage)
  rw [hfields]
  simp only [Structure.issues, objectIssues_obj, formIssues, hdeclared, List.append_eq_nil_iff,
    hkeys, hsections, hlists, hconditions, hpresent, hpages, duplicateIssues_eq_nil_iff hnames,
    duplicateIssues_eq_nil_iff hlistNames, duplicateIssues_eq_nil_iff hpaths, h.sectionNames,
    h.listNames, h.pagePaths, true_and, and_true]

end FormDefinition

end Questionnaire
