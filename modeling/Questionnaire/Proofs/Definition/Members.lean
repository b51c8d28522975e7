import Mathlib.Data.List.Forall2
import Questionnaire.Definition.Reading
import Questionnaire.Definition.Structure

/-!
# Members without an issue

The check of a member says nothing exactly when the member is of the form that its reading expects.
The members of a definition are of few kinds: a single value that may be missing, a text that must
be there, an object in an object, and an array of objects. What is shown here for each kind, the
parts of a definition use for their own members.

The names of the objects in an array are those of the parts that the objects are read as, and the
check for names that occur twice says nothing exactly when they all differ
(`duplicateIssues_eq_nil_iff`).
-/

namespace Questionnaire

/-! ## Arrays -/

theorem mapM_eq_some_iff {α β : Type} {f : α → Option β} {l : List α} {results : List β} :
    l.mapM f = some results ↔ List.Forall₂ (fun a b => f a = some b) l results := by
  induction l generalizing results with
  | nil => simp [eq_comm]
  | cons first rest ih =>
      cases results with
      | nil => simp [List.mapM_cons, Option.bind_eq_some_iff]
      | cons result others => simp [List.mapM_cons, Option.bind_eq_some_iff, ← ih]

/-- If each item can be read as a part with a property, all of them can. -/
theorem exists_mapM_eq_some {α β : Type} {f : α → Option β} {P : α → β → Prop} {l : List α}
    (h : ∀ a ∈ l, ∃ b, f a = some b ∧ P a b) :
    ∃ results, l.mapM f = some results ∧ List.Forall₂ P l results := by
  induction l with
  | nil => exact ⟨[], rfl, .nil⟩
  | cons first rest ih =>
      obtain ⟨⟨b, hb, hP⟩, hrest⟩ := List.forall_mem_cons.mp h
      obtain ⟨others, hothers, hPs⟩ := ih hrest
      exact ⟨b :: others, by simp [List.mapM_cons, hb, hothers], .cons hP hPs⟩

theorem forall_mem_of_forall₂ {α β : Type} {P : α → β → Prop} {Q : β → Prop} {l : List α}
    {results : List β} (h : List.Forall₂ P l results) (hQ : ∀ a b, P a b → Q b) :
    ∀ b ∈ results, Q b := by
  induction h with
  | nil => exact fun b hb => nomatch hb
  | cons hab _ ih => exact List.forall_mem_cons.mpr ⟨hQ _ _ hab, ih⟩

/-! ## Readings of a member -/

@[simp] theorem Json.str?_str (text : String) : (Json.str text).str? = some text := rfl

/-- A member, if it is there, can be read. -/
def Readable {α : Type} (read : Json → Option α) (member : Option Json) : Prop :=
  ∀ value, member = some value → ∃ a, read value = some a

namespace Slots

variable {α : Type} {slots : Slots} {field : String} {read : Json → Option α}

theorem exists_optional (h : Readable read (slots field)) :
    ∃ a, slots.optional field read = some a := by
  unfold optional
  split
  · exact ⟨none, rfl⟩
  · exact ⟨none, rfl⟩
  · next value _ hvalue =>
    obtain ⟨a, ha⟩ := h value hvalue
    exact ⟨some a, by rw [ha]; rfl⟩

/-- A member that is read was there and not null. -/
theorem of_optional_eq_some {a : α} (h : slots.optional field read = some (some a)) :
    ∃ value, slots field = some value ∧ value ≠ .null ∧ read value = some a := by
  unfold optional at h
  split at h
  · exact nomatch h
  · exact nomatch h
  · next value hnull hvalue =>
    obtain ⟨b, hb, hab⟩ := Option.map_eq_some_iff.mp h
    obtain rfl := Option.some.inj hab
    exact ⟨value, hvalue, fun heq => hnull heq, hb⟩

theorem required_of_eq_some {value : Json} (h : slots field = some value) :
    slots.required field read = read value := by
  simp [required, h]

theorem required_eq_withDefault {value : Json} {fallback : α} (h : slots field = some value) :
    slots.required field read = slots.withDefault field fallback read := by
  simp [required, withDefault, h]

end Slots

namespace Structure

variable {fields : Fields} {place : Place} {key : String}

@[simp] theorem slots?_ignored (allowed : List String) (fields : Fields) :
    slots? .ignored allowed (.obj fields) = some fields.get? := by
  simp [slots?]

theorem keyIssues_eq_nil_iff {allowed : List String} :
    keyIssues allowed fields place = [] ↔ ∀ member ∈ fields, member.1 ∈ allowed := by
  simp [keyIssues]

theorem slots?_of_keyIssues {allowed : List String} (h : keyIssues allowed fields place = []) :
    slots? .refused allowed (.obj fields) = some fields.get? := by
  simpa [slots?, keyIssues_eq_nil_iff] using h

/-! ## Single values -/

theorem memberIssues_eq_nil_iff {test : Json → Bool} {fault : StructureFault} :
    memberIssues test fault fields place key = [] ↔
      ∀ value, fields.get? key = some value → test value = true := by
  unfold memberIssues
  cases fields.get? key <;> simp

theorem missingIssues_eq_nil_iff :
    missingIssues fields place key = [] ↔ ∃ value, fields.get? key = some value := by
  rw [missingIssues, ← Option.isSome_iff_exists, Fields.has]
  split <;> simp_all

theorem optionalTextIssues_eq_nil_iff :
    optionalTextIssues fields place key = [] ↔ Readable Json.str? (fields.get? key) := by
  rw [optionalTextIssues, memberIssues_eq_nil_iff]
  exact forall₂_congr fun value _ => Option.isSome_iff_exists

theorem booleanIssues_eq_nil_iff :
    booleanIssues fields place key = [] ↔ Readable readBool? (fields.get? key) := by
  rw [booleanIssues, memberIssues_eq_nil_iff]
  refine forall₂_congr fun value _ => ?_
  cases value <;> simp [readBool?]

theorem numberIssues_eq_nil_iff :
    numberIssues fields place key = [] ↔ Readable readNumber? (fields.get? key) := by
  rw [numberIssues, memberIssues_eq_nil_iff]
  refine forall₂_congr fun value _ => ?_
  cases value <;> simp [readNumber?]

theorem countIssues_eq_nil_iff :
    countIssues fields place key = [] ↔ Readable readCount? (fields.get? key) := by
  rw [countIssues, memberIssues_eq_nil_iff]
  refine forall₂_congr fun value _ => ?_
  cases value with
  | num n => cases hn : n.nat? <;> simp [isCount, readCount?, hn, Option.filter]
  | _ => simp [isCount, readCount?]

theorem textIssues_eq_nil_iff :
    textIssues fields place key = [] ↔ ∃ text, fields.get? key = some (.str text) := by
  rw [textIssues, List.append_eq_nil_iff, missingIssues_eq_nil_iff, optionalTextIssues_eq_nil_iff]
  constructor
  · rintro ⟨⟨value, hvalue⟩, htext⟩
    obtain ⟨text, htext⟩ := htext value hvalue
    cases value <;> first | exact ⟨_, hvalue⟩ | exact nomatch htext
  · rintro ⟨text, htext⟩
    rw [htext]
    exact ⟨⟨_, rfl⟩, fun value hvalue => ⟨text, Option.some.inj hvalue ▸ rfl⟩⟩

theorem required_text (h : textIssues fields place key = []) :
    ∃ text, Slots.required fields.get? key Json.str? = some text ∧
      text? fields key = some text := by
  obtain ⟨text, htext⟩ := textIssues_eq_nil_iff.mp h
  exact ⟨text, by simp [Slots.required, htext], by simp [text?, htext]⟩

theorem optional_text (h : optionalTextIssues fields place key = []) :
    Slots.optional fields.get? key Json.str? = some (text? fields key) := by
  rw [optionalTextIssues_eq_nil_iff] at h
  unfold Slots.optional text?
  cases hvalue : fields.get? key with
  | none => rfl
  | some value =>
      obtain ⟨text, htext⟩ := h value hvalue
      cases value <;> first | rfl | exact nomatch htext

theorem exists_optional_boolean (h : booleanIssues fields place key = []) :
    ∃ b, Slots.optional fields.get? key readBool? = some b :=
  Slots.exists_optional (booleanIssues_eq_nil_iff.mp h)

theorem exists_optional_number (h : numberIssues fields place key = []) :
    ∃ x, Slots.optional fields.get? key readNumber? = some x :=
  Slots.exists_optional (numberIssues_eq_nil_iff.mp h)

theorem exists_optional_count (h : countIssues fields place key = []) :
    ∃ n, Slots.optional fields.get? key readCount? = some n :=
  Slots.exists_optional (countIssues_eq_nil_iff.mp h)

theorem lt_of_readCount? {value : Json} {n : Nat} (h : readCount? value = some n) :
    n < word32Limit := by
  cases value with
  | num number =>
      obtain ⟨-, hn⟩ := Option.filter_eq_some_iff.mp h
      simpa using hn
  | _ => exact nomatch h

/-! ## Objects -/

variable {visit : Fields → Place → List StructureIssue}

@[simp] theorem objectIssues_obj (inside : Fields) :
    objectIssues visit (.obj inside) place = visit inside place := rfl

theorem objectIssues_eq_nil_iff {value : Json} :
    objectIssues visit value place = [] ↔
      ∃ inside, value = .obj inside ∧ visit inside place = [] := by
  cases value <;> simp [objectIssues]

theorem insideIssues_eq_nil_iff :
    insideIssues visit fields place key = [] ↔
      ∀ value, fields.get? key = some value →
        objectIssues visit value (place ++ [.key key]) = [] := by
  unfold insideIssues
  cases fields.get? key <;> simp

theorem eachIssues_eq_nil_iff :
    eachIssues visit fields place key = [] ↔
      ∀ value, fields.get? key = some value → ∃ items, value = .arr items ∧
        ∀ entry ∈ items.zipIdx,
          objectIssues visit entry.1 (place ++ [.key key, .index entry.2]) = [] := by
  unfold eachIssues
  cases fields.get? key with
  | none => simp
  | some value => cases value <;> simp

/-- The items of a member that is an array. -/
def itemsOf (fields : Fields) (key : String) : List Json :=
  ((fields.get? key).bind Json.arr?).getD []

section

variable {α : Type} {read : Json → Option α} {P : Json → α → Prop}

/-- An object in an object can be read when every object that is in order can. -/
theorem exists_inside {fallback : α} {Q : α → Prop}
    (hread : ∀ value place, objectIssues visit value place = [] →
      ∃ part, read value = some part ∧ Q part)
    (hfallback : Q fallback) (h : insideIssues visit fields place key = []) :
    ∃ part, Slots.withDefault fields.get? key fallback read = some part ∧ Q part := by
  unfold Slots.withDefault
  split
  · exact ⟨fallback, rfl, hfallback⟩
  · next value hvalue => exact hread value _ (insideIssues_eq_nil_iff.mp h value hvalue)

/-- An array of objects can be read when every object that is in order can. -/
theorem exists_each
    (hread : ∀ value place, objectIssues visit value place = [] →
      ∃ part, read value = some part ∧ P value part)
    (h : eachIssues visit fields place key = []) :
    ∃ parts, Slots.withDefault fields.get? key [] (readList? read) = some parts ∧
      List.Forall₂ P (itemsOf fields key) parts := by
  rw [eachIssues_eq_nil_iff] at h
  unfold Slots.withDefault itemsOf
  cases hvalue : fields.get? key with
  | none => exact ⟨[], rfl, .nil⟩
  | some value =>
      obtain ⟨items, rfl, hitems⟩ := h value hvalue
      refine exists_mapM_eq_some fun item hitem => ?_
      obtain ⟨i, hi⟩ := List.mem_iff_getElem?.mp hitem
      exact hread item _ (hitems (item, i) (List.mem_zipIdx_iff_getElem?.mpr hi))

theorem exists_each_of {Q : α → Prop}
    (hread : ∀ value place, objectIssues visit value place = [] →
      ∃ part, read value = some part ∧ Q part)
    (h : eachIssues visit fields place key = []) :
    ∃ parts, Slots.withDefault fields.get? key [] (readList? read) = some parts ∧
      ∀ part ∈ parts, Q part := by
  obtain ⟨parts, hparts, hall⟩ := exists_each hread h
  exact ⟨parts, hparts, forall_mem_of_forall₂ hall fun _ _ hQ => hQ⟩

end

/-! ## Names -/

/-- The text under a key of an object. -/
def textIn? (nameKey : String) (value : Json) : Option String :=
  value.obj?.bind fun inside => text? inside nameKey

theorem namesIn_eq_filterMap (fields : Fields) (key nameKey : String) :
    namesIn fields key nameKey = (itemsOf fields key).zipIdx.filterMap fun entry =>
      (textIn? nameKey entry.1).map (·, entry.2) := by
  unfold namesIn itemsOf
  split
  · next items hitems => rw [hitems]; rfl
  · next hnone =>
    cases hvalue : fields.get? key with
    | none => rfl
    | some value => cases value <;> first | rfl | exact absurd hvalue (hnone _)

/-- The names in an array are those of what its objects are read as. -/
theorem namesIn_eq {α : Type} {name : α → String} {nameKey : String} {parts : List α}
    (h : List.Forall₂ (fun item part => textIn? nameKey item = some (name part))
      (itemsOf fields key) parts) :
    namesIn fields key nameKey = (parts.map name).zipIdx := by
  rw [namesIn_eq_filterMap]
  generalize itemsOf fields key = items at h
  generalize (0 : Nat) = i
  induction h generalizing i with
  | nil => rfl
  | cons hitem _ ih =>
      rw [List.zipIdx_cons, List.filterMap_cons, hitem, ih, List.map_cons, List.zipIdx_cons]
      rfl

theorem duplicateIssues_eq_nil_iff {what nameKey : String} {names : List String}
    (h : namesIn fields key nameKey = names.zipIdx) :
    duplicateIssues what fields key nameKey = [] ↔ names.Nodup := by
  simp only [duplicateIssues, h, List.map_eq_nil_iff, List.filter_eq_nil_iff, List.any_eq_true,
    Bool.and_eq_true, beq_iff_eq, decide_eq_true_eq, Prod.forall, List.mem_zipIdx_iff_getElem?]
  rw [List.Nodup, List.pairwise_iff_getElem]
  constructor
  · intro h i j hi hj hij heq
    exact h names[j] j (List.getElem?_eq_getElem hj)
      ⟨(names[i], i), List.getElem?_eq_getElem hi, heq, hij⟩
  · rintro h name j hj ⟨⟨other, i⟩, hi, rfl, hij⟩
    obtain ⟨hjlt, hjname⟩ := List.getElem?_eq_some_iff.mp hj
    obtain ⟨hilt, hiname⟩ := List.getElem?_eq_some_iff.mp hi
    exact h i j hilt hjlt hij (hiname.trans hjname.symm)

end Structure

end Questionnaire
