import Questionnaire.Json.Fields
import Questionnaire.Rule.Keys
import Questionnaire.Rule.Validation

/-!
# Checking objects member by member

What the rule of an object asks for is asked of each member on its own: the member at a key is the
one that the key's rule converts (`get?_checkKeys`), the failures are those that the rules find, key
by key (`checkKeys_failures`), and the members without a rule are all let through or all refused
(`checkUnknown_eq`). The object passes when every key's rule passes and no member is without a rule
(`validate_ofKeys_eq_ok_iff`).
-/

namespace Questionnaire.Rule

theorem checkKeys_cons (options : ValidationOptions) (key : String) (rule : Rule) (rest : Keys)
    (fields : Fields) :
    checkKeys options ((key, rule) :: rest) fields =
      let checked := (rule.check options key (some fields) (fields.get? key)).under key
      (match checked.value with
        | some value => (checkKeys options rest fields).1.insert key value
        | none => (checkKeys options rest fields).1,
       checked.failures ++ (checkKeys options rest fields).2) := by
  rw [checkKeys]
  dsimp only
  split <;> simp_all

theorem ordered_checkKeys (options : ValidationOptions) (keys : Keys) (fields : Fields) :
    (checkKeys options keys fields).1.Ordered := by
  induction keys with
  | nil => exact Fields.Ordered.nil
  | cons entry rest ih =>
      obtain ⟨key, rule⟩ := entry
      rw [checkKeys_cons]
      dsimp only
      split
      · exact ih.insert ..
      · exact ih

theorem has_of_mem_checkKeys {options : ValidationOptions} {keys : Keys} {fields : Fields} :
    ∀ member ∈ (checkKeys options keys fields).1, keys.has member.1 = true := by
  induction keys with
  | nil => exact nofun
  | cons entry rest ih =>
      obtain ⟨key, rule⟩ := entry
      intro member hmember
      rw [checkKeys_cons] at hmember
      dsimp only at hmember
      rw [Keys.has_iff_mem_names]
      split at hmember
      · rcases Fields.mem_insert hmember with rfl | hmember
        · exact List.mem_cons_self ..
        · exact List.mem_cons_of_mem _ (Keys.has_iff_mem_names.mp (ih member hmember))
      · exact List.mem_cons_of_mem _ (Keys.has_iff_mem_names.mp (ih member hmember))

/-- The member at a key is the one that the key's rule makes of the member there was. -/
theorem get?_checkKeys (options : ValidationOptions) {keys : Keys} (hkeys : keys.names.Nodup)
    (fields : Fields) (k : String) :
    (checkKeys options keys fields).1.get? k =
      (keys.get? k).bind fun rule =>
        (rule.check options k (some fields) (fields.get? k)).value := by
  induction keys with
  | nil => rfl
  | cons entry rest ih =>
      obtain ⟨key, rule⟩ := entry
      obtain ⟨hkey, hrest⟩ := List.nodup_cons.mp hkeys
      rw [checkKeys_cons, Keys.get?_cons]
      dsimp only [Checked.under]
      by_cases heq : key = k
      · subst heq
        -- No later rule has the key, so what is inserted last is what stands.
        have hnone : Keys.get? rest key = none := by
          rw [← Option.not_isSome_iff_eq_none, Keys.isSome_get?, Keys.has_iff_mem_names]
          exact hkey
        split
        · next value hvalue => simp [Fields.get?_insert, hvalue]
        · next hvalue => simp [ih hrest, hnone, hvalue]
      · rw [if_neg heq, ← ih hrest]
        split
        · rw [Fields.get?_insert, if_neg heq]
        · rfl

/-- The failures of an object, rule by rule. -/
theorem checkKeys_failures (options : ValidationOptions) (keys : Keys) (fields : Fields) :
    (checkKeys options keys fields).2 = keys.flatMap fun entry =>
      (entry.2.check options entry.1 (some fields) (fields.get? entry.1)).failures.map
        (Failure.under entry.1) := by
  induction keys with
  | nil => rfl
  | cons entry rest ih =>
      obtain ⟨key, rule⟩ := entry
      rw [checkKeys_cons, ih, List.flatMap_cons]
      rfl

/-- A failure of an object is one that some rule finds at its key. -/
theorem exists_of_mem_checkKeys {options : ValidationOptions} {keys : Keys} {fields : Fields}
    {failure : Failure} (h : failure ∈ (checkKeys options keys fields).2) :
    ∃ key rule, (key, rule) ∈ keys ∧
      ∃ inner ∈ (rule.check options key (some fields) (fields.get? key)).failures,
        failure = inner.under key := by
  rw [checkKeys_failures] at h
  obtain ⟨⟨key, rule⟩, hentry, h⟩ := List.mem_flatMap.mp h
  obtain ⟨inner, hinner, rfl⟩ := List.mem_map.mp h
  exact ⟨key, rule, hentry, inner, hinner, rfl⟩

theorem checkKeys_failures_eq_nil_iff {options : ValidationOptions} {keys : Keys}
    {fields : Fields} :
    (checkKeys options keys fields).2 = [] ↔
      ∀ entry ∈ keys,
        (entry.2.check options entry.1 (some fields) (fields.get? entry.1)).failures = [] := by
  rw [checkKeys_failures, List.flatMap_eq_nil_iff]
  simp only [List.map_eq_nil_iff]

/-! ## Members without a rule -/

section

variable {allowed : Bool} {keys : Keys} {fields : Fields}

/-- The members that have no rule are all let through, or each is refused at its key. -/
theorem checkUnknown_eq (allowed : Bool) (keys : Keys) (fields : Fields) :
    checkUnknown allowed keys fields =
      let unknown := fields.filter fun member => !keys.has member.1
      if allowed then (unknown, [])
      else ([], unknown.map fun member => ⟨[member.1], member.1, .unknownKey⟩) := by
  induction fields with
  | nil => cases allowed <;> rfl
  | cons member rest ih =>
      obtain ⟨key, value⟩ := member
      rw [checkUnknown, ih]
      cases hkey : keys.has key <;> cases allowed <;> simp [hkey]

theorem exists_of_mem_checkUnknown {failure : Failure}
    (h : failure ∈ (checkUnknown allowed keys fields).2) :
    ∃ member ∈ fields, keys.has member.1 = false ∧
      failure = ⟨[member.1], member.1, .unknownKey⟩ := by
  rw [checkUnknown_eq] at h
  cases allowed with
  | true => cases h
  | false =>
      obtain ⟨member, hmember, rfl⟩ := List.mem_map.mp h
      obtain ⟨hmember, hunknown⟩ := List.mem_filter.mp hmember
      exact ⟨member, hmember, by simpa using hunknown, rfl⟩

theorem checkUnknown_failures_eq_nil_iff :
    (checkUnknown allowed keys fields).2 = [] ↔
      allowed = true ∨ ∀ member ∈ fields, keys.has member.1 = true := by
  rw [checkUnknown_eq]
  cases allowed <;> simp

theorem checkUnknown_of_has (h : ∀ member ∈ fields, keys.has member.1 = true) :
    checkUnknown allowed keys fields = ([], []) := by
  have hnone : fields.filter (fun member => !keys.has member.1) = [] :=
    List.filter_eq_nil_iff.mpr fun member hmember => by simp [h member hmember]
  rw [checkUnknown_eq, hnone]
  cases allowed <;> rfl

/-- Where no member without a rule is refused, all of them are let through. -/
theorem checkUnknown_eq_filter (h : (checkUnknown allowed keys fields).2 = []) :
    (checkUnknown allowed keys fields).1 = fields.filter fun member => !keys.has member.1 := by
  rw [checkUnknown_eq] at h ⊢
  cases allowed with
  | true => rfl
  | false => exact (List.map_eq_nil_iff.mp h).symm

end

/-! ## Failures at a key -/

theorem exists_failure_checkKeys_iff {options : ValidationOptions} {keys : Keys} {fields : Fields}
    {key : String} :
    (∃ failure ∈ (checkKeys options keys fields).2, failure.path.head? = some key) ↔
      ∃ rule, (key, rule) ∈ keys ∧
        (rule.check options key (some fields) (fields.get? key)).failures ≠ [] := by
  constructor
  · rintro ⟨failure, hfailure, hhead⟩
    obtain ⟨k, rule, hentry, inner, hinner, rfl⟩ := exists_of_mem_checkKeys hfailure
    obtain rfl : k = key := Option.some.inj hhead
    exact ⟨rule, hentry, List.ne_nil_of_mem hinner⟩
  · rintro ⟨rule, hentry, hfails⟩
    obtain ⟨inner, hinner⟩ := List.exists_mem_of_ne_nil _ hfails
    refine ⟨inner.under key, ?_, rfl⟩
    rw [checkKeys_failures]
    exact List.mem_flatMap.mpr ⟨(key, rule), hentry, List.mem_map_of_mem hinner⟩

/-- The failures of members without a rule are at keys without a rule. -/
theorem has_of_mem_checkUnknown {allowed : Bool} {keys : Keys} {fields : Fields}
    {failure : Failure} (hmem : failure ∈ (checkUnknown allowed keys fields).2) {key : String}
    (hkey : failure.path.head? = some key) : keys.has key = false := by
  obtain ⟨member, -, hunknown, rfl⟩ := exists_of_mem_checkUnknown hmem
  obtain rfl := Option.some.inj hkey
  exact hunknown

/-! ## Whole objects -/

/-- What an object must have to pass the rules of its members. -/
structure Accepts (options : ValidationOptions) (keys : Keys) (fields : Fields) : Prop where
  passes : ∀ entry ∈ keys,
    (entry.2.check options entry.1 (some fields) (fields.get? entry.1)).failures = []
  known : ∀ member ∈ fields, keys.has member.1 = true

section

variable {options : ValidationOptions} {keys : Keys} {fields : Fields} {a : Attributes}
  (hallow : a.allows (.obj fields) = false) (hvalid : a.valid = none)

include hallow hvalid

theorem check_object (unknown : Bool) (name : String) (siblings : Option Fields) :
    (Rule.object keys unknown a).check options name siblings (some (.obj fields)) =
      let refused := checkUnknown (unknown || options.allowUnknown) keys fields
      ⟨some (.obj (Fields.extend (checkKeys options keys fields).1 refused.1)),
        (checkKeys options keys fields).2 ++ refused.2⟩ := by
  rw [check]
  simp [Attributes.apply, Attributes.finish, hallow, hvalid]

theorem check_object_of_accepts (h : Accepts options keys fields) (unknown : Bool) (name : String)
    (siblings : Option Fields) :
    (Rule.object keys unknown a).check options name siblings (some (.obj fields)) =
      .pass (.obj (checkKeys options keys fields).1) := by
  rw [check_object hallow hvalid, checkUnknown_of_has h.known,
    checkKeys_failures_eq_nil_iff.mpr h.passes]
  rfl

theorem accepts_of_check_object {name : String} {siblings : Option Fields}
    (hoptions : options.allowUnknown = false)
    (h : ((Rule.object keys false a).check options name siblings
      (some (.obj fields))).failures = []) : Accepts options keys fields := by
  rw [check_object hallow hvalid] at h
  obtain ⟨hkeys, hunknown⟩ := List.append_eq_nil_iff.mp h
  refine ⟨checkKeys_failures_eq_nil_iff.mp hkeys, ?_⟩
  simpa [hoptions] using checkUnknown_failures_eq_nil_iff.mp hunknown

end

/-- An object of a page is accepted when all members pass, and converted member by member. -/
theorem validate_ofKeys_eq_ok_iff {keys : Keys} {fields : Fields} {value : Json} :
    (Rule.ofKeys keys).required.validate {} (.obj fields) = .ok value ↔
      Accepts {} keys fields ∧ value = .obj (checkKeys {} keys fields).1 := by
  have hallow : ({ required := true : Attributes }).allows (.obj fields) = false := rfl
  show (Rule.object keys false { required := true }).validate {} (.obj fields) = _ ↔ _
  unfold validate
  constructor
  · intro h
    dsimp only at h
    split at h
    · next hfailures =>
      have haccepts := accepts_of_check_object hallow rfl rfl (List.isEmpty_iff.mp hfailures)
      rw [check_object_of_accepts hallow rfl haccepts] at h
      exact ⟨haccepts, (Except.ok.inj h).symm⟩
    · exact nomatch h
  · rintro ⟨haccepts, rfl⟩
    rw [check_object_of_accepts hallow rfl haccepts]
    rfl

/-- An object of a page is refused with the failures of its members. -/
theorem validate_ofKeys_eq_error_iff {keys : Keys} {fields : Fields} {failures : List Failure} :
    (Rule.ofKeys keys).required.validate {} (.obj fields) = .error failures ↔
      failures ≠ [] ∧
        failures = (checkKeys {} keys fields).2 ++ (checkUnknown false keys fields).2 := by
  have hallow : ({ required := true : Attributes }).allows (.obj fields) = false := rfl
  show (Rule.object keys false { required := true }).validate {} (.obj fields) = _ ↔ _
  rw [validate, check_object hallow rfl]
  dsimp only [Bool.or_false]
  split
  · next hnone =>
    constructor
    · intro h
      cases h
    · rintro ⟨hne, rfl⟩
      exact absurd (List.isEmpty_iff.mp hnone) hne
  · next hsome =>
    constructor
    · intro h
      obtain rfl := Except.error.inj h
      exact ⟨fun hnil => hsome (List.isEmpty_iff.mpr hnil), rfl⟩
    · rintro ⟨-, rfl⟩
      rfl

end Questionnaire.Rule
