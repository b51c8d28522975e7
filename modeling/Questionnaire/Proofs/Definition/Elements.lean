import Questionnaire.Proofs.Definition.Inside
import Questionnaire.Proofs.Definition.Members
import Questionnaire.Proofs.Definition.Places

/-!
# The issues of one element

A definition is checked array by array, and in each array element by element. What is reported at or
under an element depends on that element alone, with two exceptions: whether a page's section is
declared, and whether an earlier element has the same name (`Structure.issuesAt_congr`). Names of
conditions may repeat.
-/

namespace Questionnaire

namespace Structure

/-! ## The arrays of a definition -/

/-- The arrays whose elements are checked one by one. -/
inductive Collection where
  | sections
  | lists
  | conditions
  | pages
deriving DecidableEq

namespace Collection

/-- The member that holds the array. -/
def key : Collection → String
  | .sections => "sections"
  | .lists => "lists"
  | .conditions => "conditions"
  | .pages => "pages"

/-- The member by which elements are told apart: the path of a page, and otherwise a name. -/
def nameKey : Collection → String
  | .pages => "path"
  | _ => "name"

/-- What must differ between elements. Of conditions with one name the last counts. -/
def what? : Collection → Option String
  | .sections => some "section name"
  | .lists => some "list name"
  | .conditions => none
  | .pages => some "page path"

/-- The check of an element. -/
def visit (declared : List String) : Collection → Fields → Place → List StructureIssue
  | .sections => sectionIssues
  | .lists => listIssues
  | .conditions => conditionIssues
  | .pages => pageIssues declared

theorem key_injective {array other : Collection} (h : array.key = other.key) : array = other := by
  cases array <;> cases other <;> simp_all [key]

theorem bracket_notMem_key (array : Collection) : '[' ∉ array.key.toList := by
  cases array <;> decide

/-- The place of an element. -/
def element (array : Collection) (i : Nat) : Place :=
  Place.element array.key i

end Collection

/-- The names that the sections of a definition declare. -/
def declaredNames (fields : Fields) : List String :=
  (itemsOf fields "sections").filterMap (textIn? "name")

theorem namesIn_sections (fields : Fields) :
    (namesIn fields "sections" "name").map (·.1) = declaredNames fields := by
  rw [namesIn_eq_filterMap, declaredNames, List.map_filterMap]
  generalize itemsOf fields "sections" = items
  generalize (0 : Nat) = i
  induction items generalizing i with
  | nil => rfl
  | cons item rest ih =>
      rw [List.zipIdx_cons, List.filterMap_cons, List.filterMap_cons, ih]
      cases textIn? "name" item <;> rfl

/-- The name of an element, if it is an object and has one that is a text. -/
def elementName? (fields : Fields) (array : Collection) (i : Nat) : Option String :=
  ((itemsOf fields array.key)[i]?).bind (textIn? array.nameKey)

/-- An earlier element has a name. -/
def HasEarlier (fields : Fields) (array : Collection) (i : Nat) (name : String) : Prop :=
  ∃ j, j < i ∧ elementName? fields array j = some name

instance (fields : Fields) (array : Collection) (i : Nat) (name : String) :
    Decidable (HasEarlier fields array i name) :=
  inferInstanceAs (Decidable (∃ j, j < i ∧ elementName? fields array j = some name))

/-- The issue of an element whose name an earlier one has, if names must differ. -/
def repeatIssues (fields : Fields) (array : Collection) (i : Nat) (value : Json) :
    List StructureIssue :=
  match array.what?, textIn? array.nameKey value with
  | some what, some name =>
    if HasEarlier fields array i name then [⟨array.element i, .duplicate what name⟩] else []
  | _, _ => []

/-- The issues of an array that is there. -/
def arrayIssues (fields : Fields) (array : Collection) : List StructureIssue :=
  eachIssues (array.visit (declaredNames fields)) fields [] array.key ++
    match array.what? with
    | some what => duplicateIssues what fields array.key array.nameKey
    | none => []

theorem formIssues_eq (fields : Fields) :
    formIssues fields =
      keyIssues ["pages", "sections", "lists", "conditions"] fields [] ++
        arrayIssues fields .sections ++ arrayIssues fields .lists ++
        arrayIssues fields .conditions ++ missingIssues fields [] "pages" ++
        arrayIssues fields .pages := by
  simp only [formIssues, namesIn_sections, arrayIssues, Collection.what?, Collection.visit,
    Collection.key, Collection.nameKey, List.append_assoc, List.append_nil]

theorem mem_namesIn_iff {fields : Fields} {array : Collection} {name : String} {j : Nat} :
    (name, j) ∈ namesIn fields array.key array.nameKey ↔ elementName? fields array j = some name := by
  simp only [namesIn_eq_filterMap, List.mem_filterMap, Prod.exists, List.mem_zipIdx_iff_getElem?,
    Option.map_eq_some_iff, Prod.mk.injEq, elementName?, Option.bind_eq_some_iff]
  grind

theorem any_namesIn_iff (fields : Fields) (array : Collection) (name : String) (i : Nat) :
    ((namesIn fields array.key array.nameKey).any fun (other, j) => other == name && j < i) =
      true ↔ HasEarlier fields array i name := by
  simp only [HasEarlier, List.any_eq_true, Bool.and_eq_true, beq_iff_eq, decide_eq_true_eq,
    Prod.exists, mem_namesIn_iff]
  grind

/-- The issues of names that occur again, element by element. -/
theorem duplicateIssues_eq_flatMap {fields : Fields} {array : Collection} {what : String}
    (hwhat : array.what? = some what) :
    duplicateIssues what fields array.key array.nameKey =
      (itemsOf fields array.key).zipIdx.flatMap fun entry =>
        repeatIssues fields array entry.2 entry.1 := by
  have hearlier : ∀ name i, ((namesIn fields array.key array.nameKey).any
      fun (other, j) => other == name && j < i) = decide (HasEarlier fields array i name) :=
    fun name i => by rw [Bool.eq_iff_iff, any_namesIn_iff, decide_eq_true_eq]
  simp only [duplicateIssues, hearlier]
  rw [namesIn_eq_filterMap]
  induction (itemsOf fields array.key).zipIdx with
  | nil => rfl
  | cons entry rest ih =>
      rw [List.flatMap_cons, ← ih, List.filterMap_cons, repeatIssues, hwhat]
      cases textIn? array.nameKey entry.1 with
      | none => rfl
      | some name =>
          by_cases h : HasEarlier fields array entry.2 name
          · simp [h, Collection.element, Place.element]
          · simp [h]

/-! ## Issues of one element -/

/-- The issue of an element that is a page whose section is not declared. -/
def undeclaredIssues (declared : List String) (array : Collection) (value : Json) (place : Place) :
    List StructureIssue :=
  match array, textIn? "section" value with
  | .pages, some name =>
    if declared.contains name then [] else [⟨place ++ [.key "section"], .undeclaredSection name⟩]
  | _, _ => []

/-- The issues of a page apart from that of its section are the same whichever are declared. -/
theorem exists_pageIssues (inside : Fields) (place : Place) :
    ∃ before after, Inside place before ∧ Inside place after ∧
      ∀ declared, pageIssues declared inside place =
        before ++ undeclaredIssues declared .pages (.obj inside) place ++ after := by
  refine ⟨keyIssues ["path", "title", "section", "components", "next"] inside place ++
      pathIssues inside place ++ optionalTextIssues inside place "title" ++
      optionalTextIssues inside place "section",
    componentsIssues inside place ++ eachIssues routeIssues inside place "next", ?_, ?_, ?_⟩
  · simp [inside_pathIssues]
  · simp [inside_componentsIssues, inside_eachIssues inside_routeIssues]
  · intro declared
    have hsection : textIn? "section" (.obj inside) = text? inside "section" := rfl
    simp only [pageIssues, pageSectionIssues, undeclaredIssues, hsection, List.append_assoc]
    cases text? inside "section" <;> rfl

/-- What the check of an element finds, apart from a section that is not declared, depends on the
element and its place alone. -/
theorem exists_objectIssues (array : Collection) (value : Json) (place : Place) :
    ∃ before after, Inside place before ∧ Inside place after ∧
      ∀ declared, objectIssues (array.visit declared) value place =
        before ++ undeclaredIssues declared array value place ++ after := by
  cases value with
  | obj inside =>
      cases array with
      | pages => exact exists_pageIssues inside place
      | sections =>
          exact ⟨_, [], inside_sectionIssues inside place, inside_nil, fun _ => by
            simp [objectIssues, Collection.visit, undeclaredIssues]⟩
      | lists =>
          exact ⟨_, [], inside_listIssues inside place, inside_nil, fun _ => by
            simp [objectIssues, Collection.visit, undeclaredIssues]⟩
      | conditions =>
          exact ⟨_, [], inside_conditionIssues inside place, inside_nil, fun _ => by
            simp [objectIssues, Collection.visit, undeclaredIssues]⟩
  | _ =>
      have hself : Inside place [⟨place, .notObject⟩] := fun issue hissue =>
        List.mem_singleton.mp hissue ▸ ⟨List.prefix_refl place, rfl⟩
      refine ⟨_, [], hself, inside_nil, fun _ => ?_⟩
      cases array <;> rfl

/-- All issues of an element. -/
def elementIssues (fields : Fields) (array : Collection) (i : Nat) (value : Json) :
    List StructureIssue :=
  objectIssues (array.visit (declaredNames fields)) value (array.element i) ++
    repeatIssues fields array i value

theorem prefix_of_mem_undeclaredIssues {declared : List String} {array : Collection} {value : Json}
    {place : Place} {issue : StructureIssue}
    (h : issue ∈ undeclaredIssues declared array value place) : place <+: issue.place := by
  unfold undeclaredIssues at h
  split at h
  · split at h
    · exact absurd h List.not_mem_nil
    · rw [List.mem_singleton.mp h]
      exact List.prefix_append ..
  · exact absurd h List.not_mem_nil

theorem place_of_mem_repeatIssues {fields : Fields} {array : Collection} {i : Nat} {value : Json}
    {issue : StructureIssue} (h : issue ∈ repeatIssues fields array i value) :
    issue.place = array.element i := by
  unfold repeatIssues at h
  split at h
  · split at h
    · rw [List.mem_singleton.mp h]
    · exact absurd h List.not_mem_nil
  · exact absurd h List.not_mem_nil

/-- The issues of an element are at it or under it. -/
theorem prefix_of_mem_elementIssues {fields : Fields} {array : Collection} {i : Nat} {value : Json}
    {issue : StructureIssue} (h : issue ∈ elementIssues fields array i value) :
    array.element i <+: issue.place := by
  obtain ⟨before, after, hbefore, hafter, heq⟩ := exists_objectIssues array value (array.element i)
  rw [elementIssues, heq] at h
  simp only [List.mem_append] at h
  rcases h with ((h | h) | h) | h
  · exact (hbefore issue h).1
  · exact prefix_of_mem_undeclaredIssues h
  · exact (hafter issue h).1
  · exact place_of_mem_repeatIssues h ▸ List.prefix_refl _

/-! ## Issues at an element -/

/-- Whether an issue is that of a member that a definition does not have. -/
def isStray (issue : StructureIssue) : Bool :=
  issue.fault == .unknownKey && issue.place.length == 1

/-- Whether an issue is reported at or under an element. The members that a definition does not have
are set apart, since their names may be spelled like any place. -/
def reportedAt (array : Collection) (i : Nat) (issue : StructureIssue) : Bool :=
  !isStray issue && Place.leadsTo (array.element i).text issue.place.text

/-- The issues of a definition that are reported at or under an element, in order. -/
def issuesAt (fields : Fields) (array : Collection) (i : Nat) : List StructureIssue :=
  (issues (.obj fields)).filter (reportedAt array i)

theorem reportedAt_elementIssues {fields : Fields} {array other : Collection} {i j : Nat}
    {value : Json} {issue : StructureIssue} (h : issue ∈ elementIssues fields other j value) :
    reportedAt array i issue = true ↔ array = other ∧ i = j := by
  obtain ⟨rest, hrest⟩ := prefix_of_mem_elementIssues h
  have hstray : isStray issue = false := by
    rw [isStray, ← hrest]
    simp [Collection.element, Place.element]
  rw [reportedAt, hstray, ← hrest, Bool.not_false, Bool.true_and, Collection.element,
    Collection.element, Place.leadsTo_element_iff array.bracket_notMem_key other.bracket_notMem_key]
  exact and_congr_left fun _ => ⟨Collection.key_injective, congrArg Collection.key⟩

/-- An issue at an array as a whole is at none of its elements. -/
theorem reportedAt_array (array other : Collection) (i : Nat) (fault : StructureFault) :
    reportedAt array i ⟨[.key other.key], fault⟩ = false := by
  rw [reportedAt, Collection.element, Place.not_leadsTo_array other.bracket_notMem_key,
    Bool.and_false]

/-- Of what is found element by element, what is found at one of them. -/
theorem filter_flatMap_zipIdx {α β : Type} {f : α × Nat → List β} {p : β → Bool} {i : Nat}
    (h : ∀ entry, ∀ b ∈ f entry, p b = true ↔ i = entry.2) (items : List α) :
    (items.zipIdx.flatMap f).filter p = (items[i]?).elim [] fun a => f (a, i) := by
  have hown : ∀ a, (f (a, i)).filter p = f (a, i) :=
    fun a => List.filter_eq_self.mpr fun b hb => (h (a, i) b hb).mpr rfl
  have hother : ∀ a j, i ≠ j → (f (a, j)).filter p = [] :=
    fun a j hne => List.filter_eq_nil_iff.mpr fun b hb hp => hne ((h (a, j) b hb).mp hp)
  have hlater : ∀ (items : List α) (n : Nat), i < n →
      ((items.zipIdx n).flatMap f).filter p = [] := by
    intro items n hn
    rw [List.filter_flatMap, List.flatMap_eq_nil_iff]
    intro entry hentry
    exact hother entry.1 entry.2 (by have := List.le_snd_of_mem_zipIdx hentry; omega)
  -- The index is counted from where the rest of the items begins.
  suffices hfrom : ∀ n k, n + k = i →
      ((items.zipIdx n).flatMap f).filter p = (items[k]?).elim [] fun a => f (a, i) from
    hfrom 0 i (Nat.zero_add i)
  induction items with
  | nil => exact fun n k _ => rfl
  | cons a rest ih =>
      intro n k hk
      rw [List.zipIdx_cons, List.flatMap_cons, List.filter_append]
      cases k with
      | zero =>
          obtain rfl : n = i := hk
          rw [hown, hlater rest (n + 1) (Nat.lt_succ_self n), List.append_nil]
          rfl
      | succ k =>
          rw [hother a n (by omega), ih (n + 1) k (by omega)]
          rfl

/-- An array is refused as a whole, or its elements are checked one by one. -/
theorem eachIssues_eq_flatMap (visit : Fields → Place → List StructureIssue) (fields : Fields)
    (key : String) :
    ∃ whole, (∀ issue ∈ whole, issue = ⟨[.key key], .notArray⟩) ∧
      eachIssues visit fields [] key = whole ++ (itemsOf fields key).zipIdx.flatMap fun entry =>
        objectIssues visit entry.1 [.key key, .index entry.2] := by
  unfold eachIssues itemsOf
  cases fields.get? key with
  | none => exact ⟨[], nofun, rfl⟩
  | some value =>
      cases value with
      | arr items => exact ⟨[], nofun, rfl⟩
      | _ => exact ⟨[⟨[.key key], .notArray⟩], fun _ => List.mem_singleton.mp, rfl⟩

theorem arrayIssues_eq_flatMap (fields : Fields) (array : Collection) :
    ∃ whole, (∀ issue ∈ whole, issue = ⟨[.key array.key], .notArray⟩) ∧
      arrayIssues fields array = whole ++
        ((itemsOf fields array.key).zipIdx.flatMap fun entry =>
          objectIssues (array.visit (declaredNames fields)) entry.1 (array.element entry.2)) ++
        (itemsOf fields array.key).zipIdx.flatMap fun entry =>
          repeatIssues fields array entry.2 entry.1 := by
  obtain ⟨whole, hwhole, heach⟩ :=
    eachIssues_eq_flatMap (array.visit (declaredNames fields)) fields array.key
  refine ⟨whole, hwhole, ?_⟩
  rw [arrayIssues, heach]
  congr 1
  cases hwhat : array.what? with
  | some what => exact duplicateIssues_eq_flatMap hwhat
  | none => simp [repeatIssues, hwhat]

/-- The issues of an array that are at an element are those of the element. -/
theorem filter_arrayIssues (fields : Fields) (array other : Collection) (i : Nat) :
    (arrayIssues fields other).filter (reportedAt array i) =
      if array = other then
        ((itemsOf fields array.key)[i]?).elim [] (elementIssues fields array i)
      else [] := by
  obtain ⟨whole, hwhole, harray⟩ := arrayIssues_eq_flatMap fields other
  have hchecked : ∀ entry : Json × Nat,
      ∀ issue ∈ objectIssues (other.visit (declaredNames fields)) entry.1 (other.element entry.2),
        reportedAt array i issue = true ↔ array = other ∧ i = entry.2 := fun entry issue hissue =>
    reportedAt_elementIssues (List.mem_append_left (repeatIssues fields other entry.2 entry.1) hissue)
  have hrepeated : ∀ entry : Json × Nat, ∀ issue ∈ repeatIssues fields other entry.2 entry.1,
      reportedAt array i issue = true ↔ array = other ∧ i = entry.2 := fun entry issue hissue =>
    reportedAt_elementIssues (List.mem_append_right _ hissue)
  have hnone : whole.filter (reportedAt array i) = [] := by
    rw [List.filter_eq_nil_iff]
    intro issue hissue
    rw [hwhole issue hissue, reportedAt_array]
    exact Bool.false_ne_true
  rw [harray, List.filter_append, List.filter_append, hnone, List.nil_append]
  split
  · next hsame =>
    subst hsame
    rw [filter_flatMap_zipIdx (fun entry issue hissue => by simpa using hchecked entry issue hissue),
      filter_flatMap_zipIdx (fun entry issue hissue => by simpa using hrepeated entry issue hissue)]
    cases (itemsOf fields array.key)[i]? <;> rfl
  · next hdiffer =>
    rw [List.append_eq_nil_iff, List.filter_eq_nil_iff, List.filter_eq_nil_iff]
    constructor <;> intro issue hissue hreported <;>
      obtain ⟨entry, -, hissue⟩ := List.mem_flatMap.mp hissue
    · exact hdiffer ((hchecked entry issue hissue).mp hreported).1
    · exact hdiffer ((hrepeated entry issue hissue).mp hreported).1

/-- The issues at an element are the element's own. -/
theorem issuesAt_eq (fields : Fields) (array : Collection) (i : Nat) :
    issuesAt fields array i =
      ((itemsOf fields array.key)[i]?).elim [] (elementIssues fields array i) := by
  have hkeys : (keyIssues ["pages", "sections", "lists", "conditions"] fields []).filter
      (reportedAt array i) = [] := by
    rw [List.filter_eq_nil_iff]
    intro issue hissue
    obtain ⟨member, -, rfl⟩ := List.mem_map.mp hissue
    simp [reportedAt, isStray]
  have hmissing : (missingIssues fields [] "pages").filter (reportedAt array i) = [] := by
    unfold missingIssues
    split
    · rfl
    · exact List.filter_cons_of_neg (by
        rw [Bool.not_eq_true]
        exact reportedAt_array array .pages i .missing)
  rw [issuesAt, issues, objectIssues, formIssues_eq]
  simp only [List.filter_append, hkeys, hmissing, filter_arrayIssues]
  cases array <;> simp

/-! ## What the rest of the definition decides -/

/-- The section that a page names, if it is an object and names one by a text. -/
def pageSection? (fields : Fields) (i : Nat) : Option String :=
  ((itemsOf fields "pages")[i]?).bind (textIn? "section")

/-- Whether an issue at an element is that of a section that is not declared, or that of a name that
an earlier element has. -/
def dependsOnRest (array : Collection) (i : Nat) (issue : StructureIssue) : Bool :=
  match issue.fault with
  | .undeclaredSection _ => array == .pages && issue.place == array.element i ++ [.key "section"]
  | .duplicate _ _ => issue.place == array.element i
  | _ => false

theorem dependsOnRest_of_isLocal {array : Collection} {i : Nat} {issue : StructureIssue}
    (h : issue.fault.isLocal = true) : dependsOnRest array i issue = false := by
  unfold dependsOnRest
  split
  · next hfault => rw [hfault] at h; exact nomatch h
  · next hfault => rw [hfault] at h; exact nomatch h
  · rfl

theorem mem_undeclaredIssues_iff {declared : List String} {array : Collection} {value : Json}
    {place : Place} {issue : StructureIssue} :
    issue ∈ undeclaredIssues declared array value place ↔
      ∃ name, array = .pages ∧ textIn? "section" value = some name ∧ name ∉ declared ∧
        issue = ⟨place ++ [.key "section"], .undeclaredSection name⟩ := by
  cases array <;> cases hname : textIn? "section" value <;> simp [undeclaredIssues, hname]

theorem mem_repeatIssues_iff {fields : Fields} {array : Collection} {i : Nat} {value : Json}
    {issue : StructureIssue} :
    issue ∈ repeatIssues fields array i value ↔
      ∃ what name, array.what? = some what ∧ textIn? array.nameKey value = some name ∧
        HasEarlier fields array i name ∧ issue = ⟨array.element i, .duplicate what name⟩ := by
  cases hwhat : array.what? <;> cases hname : textIn? array.nameKey value <;>
    simp [repeatIssues, hwhat, hname]

/-- Apart from the two, the issues of an element are the same whatever the rest is. -/
theorem exists_filter_elementIssues (array : Collection) (i : Nat) (value : Json) :
    ∃ own, ∀ fields, (elementIssues fields array i value).filter (!dependsOnRest array i ·) = own := by
  obtain ⟨before, after, hbefore, hafter, heq⟩ := exists_objectIssues array value (array.element i)
  refine ⟨before ++ after, fun fields => ?_⟩
  have hlocal : ∀ part, Inside (array.element i) part →
      part.filter (!dependsOnRest array i ·) = part := fun part hpart =>
    List.filter_eq_self.mpr fun issue hissue => by
      rw [dependsOnRest_of_isLocal (hpart issue hissue).2, Bool.not_false]
  have hundeclared : (undeclaredIssues (declaredNames fields) array value (array.element i)).filter
      (!dependsOnRest array i ·) = [] := by
    rw [List.filter_eq_nil_iff]
    intro issue hissue
    obtain ⟨name, rfl, -, -, rfl⟩ := mem_undeclaredIssues_iff.mp hissue
    simp [dependsOnRest]
  have hrepeat : (repeatIssues fields array i value).filter (!dependsOnRest array i ·) = [] := by
    rw [List.filter_eq_nil_iff]
    intro issue hissue
    obtain ⟨what, name, -, -, -, rfl⟩ := mem_repeatIssues_iff.mp hissue
    simp [dependsOnRest]
  rw [elementIssues, heq, List.filter_append, List.filter_append, List.filter_append,
    hlocal before hbefore, hlocal after hafter, hundeclared, hrepeat, List.append_nil,
    List.append_nil]

section

variable {fields fields' : Fields} {array : Collection} {i : Nat}

/-- An issue of a kind that depends on the rest is one of two. -/
theorem mem_issuesAt_iff (issue : StructureIssue) (h : issue.fault.isLocal = false) :
    issue ∈ issuesAt fields array i ↔
      ∃ value, (itemsOf fields array.key)[i]? = some value ∧
        (issue ∈ undeclaredIssues (declaredNames fields) array value (array.element i) ∨
          issue ∈ repeatIssues fields array i value) := by
  rw [issuesAt_eq]
  cases (itemsOf fields array.key)[i]? with
  | none => simp
  | some value =>
      obtain ⟨before, after, hbefore, hafter, heq⟩ :=
        exists_objectIssues array value (array.element i)
      have hnot : ∀ part, Inside (array.element i) part → issue ∉ part :=
        fun part hpart hissue => absurd ((hpart issue hissue).2.symm.trans h) (by decide)
      rw [Option.elim_some, elementIssues, heq]
      simp only [List.mem_append, hnot before hbefore, hnot after hafter, false_or, or_false,
        Option.some.injEq, exists_eq_left']

theorem undeclared_mem_issuesAt_iff {name : String} :
    ⟨array.element i ++ [.key "section"], .undeclaredSection name⟩ ∈ issuesAt fields array i ↔
      array = .pages ∧ pageSection? fields i = some name ∧ name ∉ declaredNames fields := by
  simp only [mem_issuesAt_iff ⟨_, .undeclaredSection name⟩ rfl,
    mem_undeclaredIssues_iff, mem_repeatIssues_iff, pageSection?]
  constructor
  · rintro ⟨value, hvalue, ⟨other, rfl, hname, hother, heq⟩ | ⟨what, other, -, -, -, heq⟩⟩
    · cases heq
      exact ⟨rfl, Option.bind_eq_some_iff.mpr ⟨value, hvalue, hname⟩, hother⟩
    · cases heq
  · rintro ⟨rfl, hname, hother⟩
    obtain ⟨value, hvalue, hname⟩ := Option.bind_eq_some_iff.mp hname
    exact ⟨value, hvalue, .inl ⟨name, rfl, hname, hother, rfl⟩⟩

theorem duplicate_mem_issuesAt_iff {what name : String} :
    ⟨array.element i, .duplicate what name⟩ ∈ issuesAt fields array i ↔
      array.what? = some what ∧ elementName? fields array i = some name ∧
        HasEarlier fields array i name := by
  simp only [mem_issuesAt_iff ⟨_, .duplicate what name⟩ rfl,
    mem_undeclaredIssues_iff, mem_repeatIssues_iff, elementName?]
  constructor
  · rintro ⟨value, hvalue, ⟨other, -, -, -, heq⟩ | ⟨other, others, hwhat, hname, hearlier, heq⟩⟩
    · cases heq
    · cases heq
      exact ⟨hwhat, Option.bind_eq_some_iff.mpr ⟨value, hvalue, hname⟩, hearlier⟩
  · rintro ⟨hwhat, hname, hearlier⟩
    obtain ⟨value, hvalue, hname⟩ := Option.bind_eq_some_iff.mp hname
    exact ⟨value, hvalue, .inr ⟨what, name, hwhat, hname, hearlier, rfl⟩⟩

variable (h : (itemsOf fields array.key)[i]? = (itemsOf fields' array.key)[i]?)

include h

theorem filter_issuesAt_congr :
    (issuesAt fields array i).filter (!dependsOnRest array i ·) =
      (issuesAt fields' array i).filter (!dependsOnRest array i ·) := by
  rw [issuesAt_eq, issuesAt_eq, ← h]
  cases (itemsOf fields array.key)[i]? with
  | none => rfl
  | some value =>
      obtain ⟨own, hown⟩ := exists_filter_elementIssues array i value
      exact (hown fields).trans (hown fields').symm

theorem issuesAt_eq_of_agree
    (hdeclared : array = .pages → ∀ name, pageSection? fields i = some name →
      (name ∈ declaredNames fields ↔ name ∈ declaredNames fields'))
    (hearlier : array ≠ .conditions → ∀ name, elementName? fields array i = some name →
      (HasEarlier fields array i name ↔ HasEarlier fields' array i name)) :
    issuesAt fields array i = issuesAt fields' array i := by
  rw [issuesAt_eq, issuesAt_eq, ← h]
  cases hvalue : (itemsOf fields array.key)[i]? with
  | none => rfl
  | some value =>
      obtain ⟨before, after, -, -, heq⟩ := exists_objectIssues array value (array.element i)
      have hundeclared : undeclaredIssues (declaredNames fields) array value (array.element i) =
          undeclaredIssues (declaredNames fields') array value (array.element i) := by
        unfold undeclaredIssues
        split
        · next name hname =>
          have hsame := hdeclared rfl name (Option.bind_eq_some_iff.mpr ⟨value, hvalue, hname⟩)
          simp only [List.contains_eq_mem, hsame]
        · rfl
      have hrepeat : repeatIssues fields array i value = repeatIssues fields' array i value := by
        unfold repeatIssues
        split
        · next what name hwhat hname =>
          have hrepeats : array ≠ .conditions := by
            rintro rfl
            exact nomatch hwhat
          have hsame := hearlier hrepeats name
            (Option.bind_eq_some_iff.mpr ⟨value, hvalue, hname⟩)
          simp only [hsame]
        · rfl
      rw [Option.elim_some, Option.elim_some, elementIssues, elementIssues, heq, heq, hundeclared,
        hrepeat]

/-- The issues of an element are independent of the rest. Two definitions that have the same element
at the same place of an array have the same issues there, at it and under it, apart from two. A
page's section is reported exactly when it is none of the names that the sections declare, and an
element is reported as a duplicate exactly when an earlier one has its name, where names must differ,
which those of conditions need not. Where the two definitions agree on these, all issues there are
the same. -/
theorem issuesAt_congr :
    (issuesAt fields array i).filter (!dependsOnRest array i ·) =
        (issuesAt fields' array i).filter (!dependsOnRest array i ·) ∧
      (∀ name, ⟨array.element i ++ [.key "section"], .undeclaredSection name⟩ ∈
          issuesAt fields array i ↔
        array = .pages ∧ pageSection? fields i = some name ∧ name ∉ declaredNames fields) ∧
      (∀ what name, ⟨array.element i, .duplicate what name⟩ ∈ issuesAt fields array i ↔
        array.what? = some what ∧ elementName? fields array i = some name ∧
          HasEarlier fields array i name) ∧
      ((array = .pages → ∀ name, pageSection? fields i = some name →
          (name ∈ declaredNames fields ↔ name ∈ declaredNames fields')) →
        (array ≠ .conditions → ∀ name, elementName? fields array i = some name →
          (HasEarlier fields array i name ↔ HasEarlier fields' array i name)) →
        issuesAt fields array i = issuesAt fields' array i) :=
  ⟨filter_issuesAt_congr h, fun _ => undeclared_mem_issuesAt_iff,
    fun _ _ => duplicate_mem_issuesAt_iff, issuesAt_eq_of_agree h⟩

end

/-! ### Two visits -/

/-- A page whose path is relative, whose section is not declared, and whose component has no type. -/
def visitPage : Json :=
  .obj [("components", .arr [.obj [("name", .str "note")]]), ("path", .str "visit"),
    ("section", .str "stay")]

/-- The page after another with the same path. -/
def repeatedVisit : Fields :=
  [("pages", .arr [.obj [("path", .str "visit")], visitPage])]

/-- The page after one without a path, among sections and lists that are malformed. -/
def malformedVisit : Fields :=
  [("lists", .bool true), ("pages", .arr [.null, visitPage, .null]),
    ("sections", .arr [.obj [("name", .str "stay")], .str "hall"])]

theorem issuesAt_congr_visit :
    (itemsOf repeatedVisit "pages")[1]? = (itemsOf malformedVisit "pages")[1]? ∧
      (issuesAt repeatedVisit .pages 1).map StructureIssue.text =
        ["pages[1].path: \"visit\" must start with '/'",
          "pages[1].section: \"stay\" is not a declared section",
          "pages[1].components[0].type: is required",
          "pages[1]: duplicate page path \"visit\""] ∧
      (issuesAt malformedVisit .pages 1).map StructureIssue.text =
        ["pages[1].path: \"visit\" must start with '/'",
          "pages[1].components[0].type: is required"] ∧
      (issuesAt repeatedVisit .pages 1).filter (!dependsOnRest .pages 1 ·) =
        (issuesAt malformedVisit .pages 1).filter (!dependsOnRest .pages 1 ·) := by
  have hsame : (itemsOf repeatedVisit "pages")[1]? = (itemsOf malformedVisit "pages")[1]? := rfl
  exact ⟨hsame, by decide +kernel, by decide +kernel, (@issuesAt_congr _ _ .pages 1 hsame).1⟩

/-- A condition as it is written, and once more. -/
def repeatedCondition : Fields :=
  [("conditions", .arr
      [.obj [("name", .str "late"), ("value", .str "true")],
        .obj [("name", .str "late"), ("value", .str "true")]]),
    ("pages", .arr [])]

/-- A page, and a member that has the place of the page for a name. -/
def strayMember : Fields :=
  [("pages", .arr [.obj [("path", .str "/visit")]]), ("pages[0]", .null)]

/-- Two conditions may have one name without an issue, and a member that definitions do not have is
reported at the place that its name spells. -/
theorem exists_repeated_and_stray :
    (elementName? repeatedCondition .conditions 1 = some "late" ∧
        HasEarlier repeatedCondition .conditions 1 "late" ∧
        issues (.obj repeatedCondition) = []) ∧
      (∃ issue ∈ issues (.obj strayMember), issue.place.text = "pages[0]") ∧
      issues (.obj (strayMember.filter (·.1 == "pages"))) = [] := by
  refine ⟨⟨rfl, ⟨0, Nat.zero_lt_one, rfl⟩, by decide +kernel⟩, ?_, by decide +kernel⟩
  exact ⟨⟨[.key "pages[0]"], .unknownKey⟩, by decide +kernel, by decide⟩

end Structure

end Questionnaire
