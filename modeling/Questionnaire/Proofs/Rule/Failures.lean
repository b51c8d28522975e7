import Questionnaire.Proofs.Component.OwnRule

/-!
# Which failures depend on what

The failures of an object are those of its members, rule by rule (`checkKeys_failures`), and one more
for each member without a rule. Apart from the latter (`ruleFailures`) what the rule of a field finds
wrong with an answer is its own: it depends neither on the settings of the validation nor on the
answers beside it (`IsField.ruleFailures_check`), save for the answer that reveals the field
(`ruleFailures_check_behind`).
-/

namespace Questionnaire

/-- The failures found by rules: all but those of members without a rule. -/
def ruleFailures (failures : List Failure) : List Failure :=
  failures.filter (·.fault ≠ .unknownKey)

@[simp] theorem ruleFailures_append (failures more : List Failure) :
    ruleFailures (failures ++ more) = ruleFailures failures ++ ruleFailures more :=
  List.filter_append ..

theorem ruleFailures_flatMap {α : Type} (l : List α) (f : α → List Failure) :
    ruleFailures (l.flatMap f) = l.flatMap fun a => ruleFailures (f a) :=
  List.filter_flatMap ..

theorem ruleFailures_map_under (step : String) (failures : List Failure) :
    ruleFailures (failures.map (Failure.under step)) =
      (ruleFailures failures).map (Failure.under step) :=
  List.filter_map ..

/-- The causes that concern a member of an object: it is missing, or it is unknown. -/
def Fault.isOfMember : Fault → Bool
  | .missing | .unknownKey => true
  | _ => false

theorem Fault.ne_of_isOfMember {fault other : Fault} (h : fault.isOfMember = false)
    (hother : other.isOfMember = true) : fault ≠ other := by
  rintro rfl
  exact Bool.false_ne_true (h.symm.trans hother)

/-! ## What a check finds -/

section

variable {failure : Failure} {label : String}

/-- The frame of a check finds a value itself missing, null, or none of those asked for; the rest is
left to the check of a value that is not accepted as it is. -/
theorem Attributes.mem_apply {a : Attributes} {onNull : Option Fault} {value : Option Json}
    {convert : Json → Checked} (h : failure ∈ (a.apply label onNull value convert).failures) :
    (failure.path = [] ∧ (value = none ∧ failure.fault = .missing ∨ onNull = some failure.fault ∨
        ∃ choices, failure.fault = .notAmong choices)) ∨
      ∃ given, value = some given ∧ a.allows given = false ∧ failure ∈ (convert given).failures := by
  have hfinish : ∀ given checked, failure ∈ (a.finish label given checked).failures →
      (failure.path = [] ∧ ∃ choices, failure.fault = .notAmong choices) ∨
        failure ∈ checked.failures := by
    intro given checked h
    unfold finish at h
    split at h
    · exact .inr h
    · split at h
      · exact .inr h
      · split at h
        · exact .inr h
        · next choices _ =>
          split at h
          · exact .inr h
          · rcases List.mem_append.mp h with h | h
            · exact .inr h
            · exact .inl (List.mem_singleton.mp h ▸ ⟨rfl, choices, rfl⟩)
  unfold apply at h
  split at h
  · split at h
    · exact .inl (List.mem_singleton.mp h ▸ ⟨rfl, .inl ⟨rfl, rfl⟩⟩)
    · cases h
  · next given =>
    split at h
    · cases h
    · next hallows =>
      split at h
      · exact .inl (List.mem_singleton.mp h ▸ ⟨rfl, .inr (.inl rfl)⟩)
      · rcases hfinish _ _ h with ⟨hpath, hfault⟩ | h
        · exact .inl ⟨hpath, .inr (.inr hfault)⟩
        · exact .inr ⟨_, rfl, by simpa using hallows, h⟩

theorem Leaf.isOfMember_of_mem_textFaults {c : TextConstraints} {text : String} :
    ∀ fault ∈ textFaults c text, fault.isOfMember = false := by
  simp only [textFaults, List.forall_mem_append]
  refine ⟨⟨?_, ?_⟩, ?_⟩ <;> split <;> (try split) <;> (try split) <;> simp [Fault.isOfMember]

theorem Leaf.isOfMember_of_mem_numberFaults {c : NumberConstraints} {x : Binary64} :
    ∀ fault ∈ numberFaults c x, fault.isOfMember = false := by
  simp only [numberFaults, List.forall_mem_append]
  refine ⟨⟨?_, ?_⟩, ?_⟩ <;> split <;> (try split) <;> simp [Fault.isOfMember]

/-- A leaf finds a value itself wrong, and it does not look for members. -/
theorem Leaf.mem_check {kind : Leaf} {allowsEmpty : Bool} {value : Json}
    (h : failure ∈ (kind.check allowsEmpty label value).failures) :
    failure.path = [] ∧ failure.fault.isOfMember = false := by
  have hfaults {faults : List Fault} (hfaults : ∀ fault ∈ faults, fault.isOfMember = false)
      (h : failure ∈ faults.map (⟨[], label, ·⟩)) :
      failure.path = [] ∧ failure.fault.isOfMember = false := by
    obtain ⟨fault, hfault, rfl⟩ := List.mem_map.mp h
    exact ⟨rfl, hfaults fault hfault⟩
  have hfail {fault : Fault} (hfault : fault.isOfMember = false)
      (h : failure ∈ (Checked.fail label fault).failures) :
      failure.path = [] ∧ failure.fault.isOfMember = false :=
    List.mem_singleton.mp h ▸ ⟨rfl, hfault⟩
  cases kind with
  | any => cases h
  | text c =>
      cases value with
      | str raw =>
          rw [check] at h
          generalize (if c.trim = true then Text.trim raw else raw) = text at h
          split at h
          · split at h
            · cases h
            · exact hfail rfl h
          · exact hfaults isOfMember_of_mem_textFaults h
      | _ => exact hfail rfl h
  | number c =>
      rw [check] at h
      split at h
      · exact hfaults isOfMember_of_mem_numberFaults h
      · exact hfail rfl h
  | boolean | date | dateTime =>
      rw [check] at h
      split at h
      · cases h
      · exact hfail rfl h

end

namespace Rule

/-- A member without a rule fails at its key, for that reason alone. -/
theorem eq_of_mem_checkUnknown {allowed : Bool} {keys : Keys} {fields : Fields} {failure : Failure}
    (h : failure ∈ (checkUnknown allowed keys fields).2) :
    ∃ key, failure = ⟨[key], key, .unknownKey⟩ := by
  obtain ⟨member, -, -, hfailure⟩ := exists_of_mem_checkUnknown h
  exact ⟨member.1, hfailure⟩

@[simp] theorem ruleFailures_checkUnknown (allowed : Bool) (keys : Keys) (fields : Fields) :
    ruleFailures (checkUnknown allowed keys fields).2 = [] := by
  refine List.filter_eq_nil_iff.mpr fun failure hfailure => ?_
  obtain ⟨key, rfl⟩ := eq_of_mem_checkUnknown hfailure
  simp

theorem ruleFailures_checkKeys (options : ValidationOptions) (keys : Keys) (fields : Fields) :
    ruleFailures (checkKeys options keys fields).2 = keys.flatMap fun entry =>
      (ruleFailures (entry.2.check options entry.1 (some fields)
        (fields.get? entry.1)).failures).map (Failure.under entry.1) := by
  rw [checkKeys_failures, ruleFailures_flatMap]
  exact List.flatMap_congr fun entry _ => ruleFailures_map_under ..

/-- Where no alternative passes, the failures are those of one of them, or the value is of none of
their kinds. -/
theorem mem_checkAlternatives {options : ValidationOptions} {label : String}
    {siblings : Option Fields} {rules : List Rule} {value : Json} {failure : Failure} :
    ∀ {reported : Option (List Failure)},
    failure ∈ (checkAlternatives options rules label siblings value reported).failures →
    failure = ⟨[], label, .noAlternative⟩ ∨ (∃ failures ∈ reported, failure ∈ failures) ∨
      ∃ rule ∈ rules, failure ∈ (rule.check options label siblings (some value)).failures := by
  induction rules with
  | nil =>
      intro reported h
      cases reported with
      | some failures =>
          rw [checkAlternatives] at h
          exact Or.inr (Or.inl ⟨failures, rfl, h⟩)
      | none =>
          rw [checkAlternatives] at h
          exact Or.inl (List.mem_singleton.mp h)
  | cons rule rest ih =>
      intro reported h
      rw [checkAlternatives] at h
      dsimp only at h
      split at h
      · exact Or.inr (Or.inr ⟨rule, List.mem_cons_self .., h⟩)
      · rcases ih h with hnone | ⟨failures, hreported, hmem⟩ | ⟨other, hother, hmem⟩
        · exact Or.inl hnone
        · split at hreported
          · obtain rfl := Option.some.inj hreported
            exact Or.inr (Or.inr ⟨rule, List.mem_cons_self .., hmem⟩)
          · exact Or.inr (Or.inl ⟨failures, hreported, hmem⟩)
        · exact Or.inr (Or.inr ⟨other, List.mem_cons_of_mem _ hother, hmem⟩)

/-! ## Failures at a key -/

/-- The failures of an object are at its members. -/
theorem path_ne_nil_of_mem {options : ValidationOptions} {allowed : Bool} {keys : Keys}
    {fields : Fields} {failure : Failure}
    (h : failure ∈ (checkKeys options keys fields).2 ++ (checkUnknown allowed keys fields).2) :
    failure.path ≠ [] := by
  rcases List.mem_append.mp h with h | h
  · obtain ⟨key, rule, -, inner, -, rfl⟩ := exists_of_mem_checkKeys h
    exact nofun
  · obtain ⟨key, rfl⟩ := eq_of_mem_checkUnknown h
    exact nofun

/-- The failures of an object at a key that has a rule are those that the rule finds there. -/
theorem exists_failure_at_iff (options : ValidationOptions) (allowed : Bool) (fields : Fields)
    {keys : Keys} (hkeys : keys.names.Nodup) {key : String} {rule : Rule}
    (hrule : keys.get? key = some rule) {P : List String → Prop} :
    (∃ failure ∈ (checkKeys options keys fields).2 ++ (checkUnknown allowed keys fields).2,
        ∃ rest, failure.path = key :: rest ∧ P rest) ↔
      ∃ failure ∈ (rule.check options key (some fields) (fields.get? key)).failures,
        P failure.path := by
  rw [checkKeys_failures]
  constructor
  · rintro ⟨failure, hmem, rest, hpath, hrest⟩
    rcases List.mem_append.mp hmem with hmem | hmem
    · obtain ⟨entry, hentry, hmem⟩ := List.mem_flatMap.mp hmem
      obtain ⟨inner, hinner, rfl⟩ := List.mem_map.mp hmem
      obtain ⟨rfl, rfl⟩ := List.cons.inj hpath
      rw [Keys.get?_of_mem hkeys hentry] at hrule
      obtain rfl := Option.some.inj hrule
      exact ⟨inner, hinner, hrest⟩
    · have hunknown := has_of_mem_checkUnknown hmem (by rw [hpath]; rfl)
      rw [← Keys.isSome_get?, hrule] at hunknown
      exact nomatch hunknown
  · rintro ⟨inner, hinner, hP⟩
    refine ⟨inner.under key, List.mem_append_left _ ?_, inner.path, rfl, hP⟩
    exact List.mem_flatMap.mpr ⟨_, Keys.mem_of_get? hrule, List.mem_map_of_mem hinner⟩

theorem exists_failure_key_iff (options : ValidationOptions) (allowed : Bool) (fields : Fields)
    {keys : Keys} (hkeys : keys.names.Nodup) {key : String} {rule : Rule}
    (hrule : keys.get? key = some rule) :
    (∃ failure ∈ (checkKeys options keys fields).2 ++ (checkUnknown allowed keys fields).2,
        ∃ rest, failure.path = key :: rest) ↔
      (rule.check options key (some fields) (fields.get? key)).failures ≠ [] := by
  have hat := exists_failure_at_iff options allowed fields hkeys hrule (P := fun _ => True)
  simp only [and_true] at hat
  rw [hat]
  exact ⟨fun ⟨_, hmem⟩ => List.ne_nil_of_mem hmem, List.exists_mem_of_ne_nil _⟩

/-! ## Rules of fields -/

variable {rule : Rule} (options options' : ValidationOptions) (name : String)
  (siblings siblings' : Option Fields)

/-- The rule of a part looks at the part alone. -/
theorem IsPart.check_congr (h : rule.IsPart) (value : Option Json) :
    rule.check options name siblings value = rule.check options' name siblings' value := by
  cases rule with
  | leaf kind a => rw [check, check]
  | _ => exact h.elim

theorem checkKeys_congr_of_isPart {keys : Keys} (h : ∀ entry ∈ keys, IsPart entry.2)
    (fields : Fields) : (checkKeys options keys fields).2 = (checkKeys options' keys fields).2 := by
  rw [checkKeys_failures, checkKeys_failures]
  refine List.flatMap_congr fun entry hentry => ?_
  rw [(h entry hentry).check_congr options options']

theorem checkAlternatives_congr {rules : List Rule}
    (h : ∀ rule ∈ rules, ∀ name value,
      check options rule name siblings value = check options' rule name siblings' value)
    (label : String) (value : Json) (reported : Option (List Failure)) :
    checkAlternatives options rules label siblings value reported =
      checkAlternatives options' rules label siblings' value reported := by
  induction rules generalizing reported with
  | nil => cases reported <;> rw [checkAlternatives, checkAlternatives]
  | cons rule rest ih =>
      rw [checkAlternatives, checkAlternatives, h rule (List.mem_cons_self ..)]
      simp only [ih fun other hother => h other (List.mem_cons_of_mem _ hother)]

/-- A choice looks at the value alone, and several choices at the items alone. -/
theorem check_congr_of_mem_severalOf (kind : Leaf) (choices : List Json)
    (h : rule ∈ [leaf kind { valid := some choices },
      array (leaf kind { valid := some choices }) {}]) (name : String) (value : Option Json) :
    rule.check options name siblings value = rule.check options' name siblings' value := by
  rcases List.mem_pair.mp h with rfl | rfl
  · rw [check, check]
  · rw [check, check]
    simp only [check]

/-- What the rule of a field finds wrong is the same for all settings and beside all siblings. -/
theorem IsField.ruleFailures_check (h : rule.IsField) (value : Option Json) :
    ruleFailures (rule.check options name siblings value).failures =
      ruleFailures (rule.check options' name siblings' value).failures := by
  cases h with
  | one hkind => rw [check, check]
  | @several kind choices a hkind hvalid =>
      have hrules := checkAlternatives_congr options options' siblings siblings' fun _ hrule =>
        check_congr_of_mem_severalOf options options' siblings siblings' kind choices hrule
      rw [severalOf, check, check]
      simp only [hrules]
  | @members keys a hnodup hparts hvalid =>
      have hmembers : ∀ (settings : ValidationOptions) (beside : Option Fields) (fields : Fields),
          a.allows (.obj fields) = false →
          ruleFailures ((object keys false a).check settings name beside
            (some (.obj fields))).failures = ruleFailures (checkKeys options keys fields).2 := by
        intro settings beside fields hallow
        rw [check_object hallow hvalid, ruleFailures_append, ruleFailures_checkUnknown,
          List.append_nil, checkKeys_congr_of_isPart settings options hparts]
      cases value with
      | none => rw [check, check]; rfl
      | some value =>
          cases hallow : a.allows value with
          | true =>
              have hfield := IsField.members hnodup hparts hvalid
              rw [hfield.check_allowed _ _ _ hallow, hfield.check_allowed _ _ _ hallow]
          | false =>
              cases value with
              | obj fields => rw [hmembers _ _ fields hallow, hmembers _ _ fields hallow]
              | _ => rw [check, check]; rfl

end Rule

/-- The rule of a field behind reveals looks, beside the answer, at that of the chooser. -/
theorem ruleFailures_check_behind {rule : Rule} (h : rule.IsField) (side : Side)
    (options options' : ValidationOptions) (name : String) {behind : List Reveal}
    {fields fields' : Fields}
    (hchooser : ∀ reveal ∈ behind.head?, fields.get? reveal.chooser = fields'.get? reveal.chooser)
    (value : Option Json) :
    ruleFailures ((side.behind behind rule).check options name (some fields) value).failures =
      ruleFailures ((side.behind behind rule).check options' name (some fields') value).failures := by
  cases behind with
  | nil => exact h.ruleFailures_check options options' name _ _ value
  | cons reveal outer =>
      have hselected : reveal.isSelected fields = reveal.isSelected fields' := by
        rw [Reveal.isSelected, Reveal.isSelected, hchooser reveal rfl]
      rw [check_behind, check_behind, hselected]
      split
      · exact h.required.ruleFailures_check options options' name _ _ value
      · exact (h.optional.allowing side.blank).ruleFailures_check options options' name _ _ value

end Questionnaire
