import Questionnaire.Proofs.Rule.Failures

/-!
# Objects are checked member by member

What the rule of an object finds wrong is what its keys' rules find at their keys, in the order of the
keys, then one failure for each member that has no key, and last what its own attributes find
(`check_object_of_not_allowed`). At a key that is declared there is nothing but what the key's rule
finds there (`failuresAt_check_object`).

The rule of a key may look at the members beside its own, through the choices that it comes to
(`consulted`). Apart from these no other member makes a difference to it (`check_of_agrees`).
-/

namespace Questionnaire

/-! ## Failures at a key -/

/-- The failures whose places start at a key. -/
def failuresAt (key : String) (failures : List Failure) : List Failure :=
  failures.filter (·.path.head? = some key)

@[simp] theorem failuresAt_append (key : String) (failures more : List Failure) :
    failuresAt key (failures ++ more) = failuresAt key failures ++ failuresAt key more :=
  List.filter_append ..

theorem failuresAt_map_under (key step : String) (failures : List Failure) :
    failuresAt key (failures.map (Failure.under step)) =
      if step = key then failures.map (Failure.under step) else [] := by
  rw [failuresAt, List.filter_map]
  by_cases h : step = key <;> simp [Function.comp_def, Failure.under, h]

/-- What a value is converted to has this member. -/
def Checked.member? (checked : Checked) (key : String) : Option Json :=
  (checked.value.bind Json.obj?).bind (·.get? key)

/-- The keys of an object's members that have no rule, in the order of the members. -/
def undeclared (keys : Keys) (fields : Fields) : List String :=
  (fields.filter fun member => !keys.has member.1).map (·.1)

theorem sorted_undeclared (keys : Keys) {fields : Fields} (h : fields.Ordered) :
    (undeclared keys fields).Pairwise (· < ·) :=
  List.pairwise_map.mpr (h.filter _)

/-- What attributes find wrong with a converted value: that it is none of those asked for. -/
def Attributes.remaining (a : Attributes) (label : String) (value converted : Json) :
    List Failure :=
  match a.valid with
  | none => []
  | some choices =>
    if (!converted.same value && a.allows converted) || choices.any (·.looseEq converted) then []
    else [⟨[], label, .notAmong choices⟩]

theorem Attributes.finish_some (a : Attributes) (label : String) (value converted : Json)
    (failures : List Failure) :
    a.finish label value ⟨some converted, failures⟩ =
      ⟨some converted, failures ++ a.remaining label value converted⟩ := by
  unfold finish remaining
  cases a.valid with
  | none => simp
  | some choices =>
      dsimp only
      by_cases hallowed : (!converted.same value && a.allows converted) = true
      · simp [hallowed]
      · by_cases hamong : choices.any (·.looseEq converted) = true <;> simp [hallowed, hamong]

theorem Attributes.failuresAt_remaining (a : Attributes) (label key : String)
    (value converted : Json) : failuresAt key (a.remaining label value converted) = [] := by
  unfold remaining
  cases a.valid with
  | none => rfl
  | some choices =>
      dsimp only
      split <;> rfl

namespace Rule

theorem checkUnknown_failures (allowed : Bool) (keys : Keys) (fields : Fields) :
    (checkUnknown allowed keys fields).2 =
      if allowed then [] else (undeclared keys fields).map fun key => ⟨[key], key, .unknownKey⟩ := by
  rw [checkUnknown_eq, undeclared, List.map_map]
  cases allowed <;> rfl

theorem failuresAt_checkKeys (options : ValidationOptions) {keys : Keys} (hkeys : keys.names.Nodup)
    (fields : Fields) {key : String} {rule : Rule} (hrule : (key, rule) ∈ keys) :
    failuresAt key (checkKeys options keys fields).2 =
      (rule.check options key (some fields) (fields.get? key)).failures.map (Failure.under key) := by
  induction keys with
  | nil => exact nomatch hrule
  | cons entry rest ih =>
      obtain ⟨k, first⟩ := entry
      obtain ⟨hk, hrest⟩ := List.nodup_cons.mp hkeys
      rw [checkKeys_cons]
      dsimp only [Checked.under]
      rw [failuresAt_append, failuresAt_map_under]
      rcases List.mem_cons.mp hrule with heq | hrule
      · -- No later rule has the key, so nothing else is found there.
        cases heq
        have hnone : failuresAt key (checkKeys options rest fields).2 = [] := by
          refine List.filter_eq_nil_iff.mpr fun failure hmem hat => hk ?_
          obtain ⟨other, hother, -⟩ :=
            exists_failure_checkKeys_iff.mp ⟨failure, hmem, of_decide_eq_true hat⟩
          exact List.mem_map.mpr ⟨_, hother, rfl⟩
        rw [if_pos rfl, hnone, List.append_nil]
      · have hne : k ≠ key := by
          rintro rfl
          exact hk (List.mem_map.mpr ⟨_, hrule, rfl⟩)
        rw [if_neg hne, List.nil_append, ih hrest hrule]

theorem failuresAt_checkUnknown (allowed : Bool) {keys : Keys} (fields : Fields) {key : String}
    (hkey : keys.has key = true) : failuresAt key (checkUnknown allowed keys fields).2 = [] := by
  refine List.filter_eq_nil_iff.mpr fun failure hmem hat => ?_
  have hnone := has_of_mem_checkUnknown hmem (of_decide_eq_true hat)
  rw [hkey] at hnone
  exact nomatch hnone

/-! ## The check of an object -/

/-- The members that are let through have no rule. -/
theorem has_of_mem_kept {allowed : Bool} {keys : Keys} {fields : Fields}
    {member : String × Json} (h : member ∈ (checkUnknown allowed keys fields).1) :
    keys.has member.1 = false := by
  rw [checkUnknown_eq] at h
  cases allowed with
  | true => simpa using (List.mem_filter.mp h).2
  | false => cases h

section

variable (options : ValidationOptions) {keys : Keys} (unknown : Bool) {a : Attributes}
  {fields : Fields} (hallow : a.allows (.obj fields) = false) (name : String)
  (siblings : Option Fields)

include hallow

theorem check_object_of_not_allowed :
    (Rule.object keys unknown a).check options name siblings (some (.obj fields)) =
      let refused := checkUnknown (unknown || options.allowUnknown) keys fields
      let converted := Json.obj ((checkKeys options keys fields).1.extend refused.1)
      ⟨some converted, (checkKeys options keys fields).2 ++ refused.2 ++
        a.remaining (a.label.getD name) (.obj fields) converted⟩ := by
  have hnull : Json.obj fields ≠ .null := by rintro ⟨⟩
  rw [check, Attributes.apply_some hallow hnull]
  exact Attributes.finish_some ..

variable (hkeys : keys.names.Nodup) {key : String} {rule : Rule} (hrule : (key, rule) ∈ keys)

include hkeys hrule

theorem failuresAt_check_object :
    failuresAt key
        ((Rule.object keys unknown a).check options name siblings (some (.obj fields))).failures =
      (rule.check options key (some fields) (fields.get? key)).failures.map (Failure.under key) := by
  have hhas : keys.has key = true := Keys.has_iff_mem_names.mpr (List.mem_map_of_mem hrule)
  rw [check_object_of_not_allowed options unknown hallow]
  dsimp only
  rw [failuresAt_append, failuresAt_append, failuresAt_checkKeys options hkeys fields hrule,
    failuresAt_checkUnknown _ fields hhas, Attributes.failuresAt_remaining, List.append_nil,
    List.append_nil]

theorem member?_check_object :
    ((Rule.object keys unknown a).check options name siblings (some (.obj fields))).member? key =
      (rule.check options key (some fields) (fields.get? key)).value := by
  have hhas : keys.has key = true := Keys.has_iff_mem_names.mpr (List.mem_map_of_mem hrule)
  have hkept : (Fields.ofList
      (checkUnknown (unknown || options.allowUnknown) keys fields).1).get? key = none := by
    by_contra hsome
    obtain ⟨value, hvalue⟩ := Option.ne_none_iff_exists'.mp hsome
    have hnone := has_of_mem_kept (Fields.mem_of_get?_ofList hvalue)
    rw [hhas] at hnone
    exact nomatch hnone
  rw [check_object_of_not_allowed options unknown hallow]
  show Fields.get? _ key = _
  rw [Fields.get?_extend_ofList, hkept, Option.none_or, get?_checkKeys options hkeys,
    Keys.get?_of_mem hkeys hrule]
  rfl

end

/-! ## The siblings that matter -/

mutual

/-- The members whose answers a check beside them looks at, through each choice that it comes to. The
rules inside an object or an array have other members beside them, or none. -/
def consulted (options : ValidationOptions) (fields : Fields) : Rule → Option Json → List String
  | .choose sibling is revealed hidden _, value =>
    sibling ::
      if picks (some fields) sibling is then consulted options fields revealed value
      else consulted options fields hidden value
  | .alternatives rules a, some value =>
    if a.allows value || decide (value = .null) then []
    else consultedInTurn options fields rules value
  | .alternatives _ _, none => []
  | .leaf _ _, _ => []
  | .object _ _ _, _ => []
  | .array _ _, _ => []

/-- What alternatives look at: no alternative is come to after one that passes. -/
def consultedInTurn (options : ValidationOptions) (fields : Fields) :
    List Rule → Json → List String
  | [], _ => []
  | rule :: rest, value =>
    consulted options fields rule (some value) ++
      if (check options rule rootName (some fields) (some value)).failures.isEmpty then []
      else consultedInTurn options fields rest value

end

section

variable {options : ValidationOptions} {fields other : Fields}

theorem picks_of_agrees {sibling : String} (h : other.get? sibling = fields.get? sibling)
    (is : Json) : picks (some other) sibling is = picks (some fields) sibling is := by
  simp [picks, h]

theorem checkAlternatives_of_agrees {rules : List Rule} {value : Json}
    (hcheck : ∀ rule ∈ rules,
      (∀ sibling ∈ rule.consulted options fields (some value),
        other.get? sibling = fields.get? sibling) →
      ∀ name, rule.check options name (some other) (some value) =
        rule.check options name (some fields) (some value))
    (h : ∀ sibling ∈ consultedInTurn options fields rules value,
      other.get? sibling = fields.get? sibling)
    (label : String) (reported : Option (List Failure)) :
    checkAlternatives options rules label (some other) value reported =
      checkAlternatives options rules label (some fields) value reported := by
  induction rules generalizing reported with
  | nil => cases reported <;> rw [checkAlternatives, checkAlternatives]
  | cons rule rest ih =>
      rw [consultedInTurn] at h
      have hrule := hcheck rule (List.mem_cons_self ..)
        (fun sibling hmem => h sibling (List.mem_append_left _ hmem)) label
      rw [checkAlternatives, checkAlternatives, hrule]
      by_cases hpasses : (rule.check options label (some fields) (some value)).failures = []
      · simp [hpasses]
      · -- Refused under this name, the value is refused under the one that `consultedInTurn` uses.
        have hrefused : (rule.check options rootName (some fields) (some value)).failures ≠ [] :=
          (refuses_iff rootName).mp ((refuses_iff label).mpr hpasses)
        have hrest : ∀ sibling ∈ consultedInTurn options fields rest value,
            other.get? sibling = fields.get? sibling := fun sibling hmem =>
          h sibling (List.mem_append_right _ (by simpa [hrefused] using hmem))
        simp only [ih (fun later hlater => hcheck later (List.mem_cons_of_mem _ hlater)) hrest]

/-- A check makes the same of a value beside any members that agree on those it looks at. -/
theorem check_of_agrees {rule : Rule} {value : Option Json}
    (h : ∀ sibling ∈ rule.consulted options fields value,
      other.get? sibling = fields.get? sibling) (name : String) :
    rule.check options name (some other) value = rule.check options name (some fields) value := by
  induction rule using Rule.induction generalizing name value with
  | leaf kind a => rw [check, check]
  | object keys unknown a _ => rw [check, check]
  | array item a _ => rw [check, check]
  | alternatives rules a ih =>
      cases value with
      | none =>
          rw [check, check]
          rfl
      | some value =>
          rw [check, check]
          by_cases hskips : a.allows value = true ∨ value = .null
          -- Neither a value that is welcome as it is nor null comes to the alternatives.
          · rcases hskips with hallows | rfl
            · simp [Attributes.apply, hallows]
            · simp [Attributes.apply]
          · obtain ⟨hallows, hnull⟩ := not_or.mp hskips
            rw [Bool.not_eq_true] at hallows
            rw [Attributes.apply_some hallows hnull, Attributes.apply_some hallows hnull]
            congr 1
            refine checkAlternatives_of_agrees
              (fun rule hrule hagrees name => ih rule hrule hagrees name) ?_ _ _
            simpa [consulted, hallows, hnull] using h
  | choose sibling is revealed hidden a ihr ihh =>
      rw [consulted] at h
      have hpicks := picks_of_agrees (h sibling (List.mem_cons_self ..)) is
      have hbranch := fun s hs => h s (List.mem_cons_of_mem _ hs)
      rw [check_choose, check_choose, hpicks]
      split
      · next hpicked => exact ihr (by simpa [hpicked] using hbranch) _
      · next hpicked => exact ihh (by simpa [hpicked] using hbranch) _

end

/-! ## Objects member by member -/

/-- An object that is not accepted as it is, is checked member by member: the failures are those that
the keys' rules find, in the order of the keys, those of the members without a rule, in the order of
their names, and what the object's own attributes find. What is found at a key, and what the member
there becomes, is what the key's rule makes of it, and is the same for any other object that has the
same member there and the same members where that rule looks. -/
theorem check_object_memberwise (options : ValidationOptions) {keys : Keys}
    (hkeys : keys.names.Nodup) (unknown : Bool) {a : Attributes} {fields : Fields}
    (hordered : fields.Ordered) (hallow : a.allows (.obj fields) = false) (name : String)
    (siblings : Option Fields) :
    let outcome (fields : Fields) :=
      (Rule.object keys unknown a).check options name siblings (some (.obj fields))
    let found (entry : String × Rule) :=
      entry.2.check options entry.1 (some fields) (fields.get? entry.1)
    (∃ converted, (outcome fields).value = some (.obj converted) ∧
      (outcome fields).failures =
        (keys.flatMap fun entry => (found entry).failures.map (Failure.under entry.1)) ++
        (if unknown || options.allowUnknown then []
          else (undeclared keys fields).map fun key => ⟨[key], key, .unknownKey⟩) ++
        a.remaining (a.label.getD name) (.obj fields) (.obj converted)) ∧
    (undeclared keys fields).Pairwise (· < ·) ∧
    ∀ entry ∈ keys,
      failuresAt entry.1 (outcome fields).failures =
        (found entry).failures.map (Failure.under entry.1) ∧
      (outcome fields).member? entry.1 = (found entry).value ∧
      ∀ other : Fields, a.allows (.obj other) = false →
        other.get? entry.1 = fields.get? entry.1 →
        (∀ sibling ∈ entry.2.consulted options fields (fields.get? entry.1),
          other.get? sibling = fields.get? sibling) →
        failuresAt entry.1 (outcome other).failures =
          failuresAt entry.1 (outcome fields).failures ∧
        (outcome other).member? entry.1 = (outcome fields).member? entry.1 := by
  intro outcome found
  refine ⟨?_, sorted_undeclared keys hordered, ?_⟩
  · refine ⟨_, congrArg Checked.value (check_object_of_not_allowed options unknown hallow ..), ?_⟩
    rw [← checkKeys_failures, ← checkUnknown_failures]
    exact congrArg Checked.failures (check_object_of_not_allowed options unknown hallow ..)
  · intro entry hentry
    have hat := failuresAt_check_object options unknown hallow name siblings hkeys hentry
    have hmember := member?_check_object options unknown hallow name siblings hkeys hentry
    refine ⟨hat, hmember, fun other hother hsame hagrees => ?_⟩
    -- The key's rule makes the same of the member in both objects.
    have hcheck : entry.2.check options entry.1 (some other) (other.get? entry.1) = found entry := by
      rw [hsame]
      exact check_of_agrees hagrees entry.1
    constructor
    · rw [failuresAt_check_object options unknown hother name siblings hkeys hentry, hcheck]
      exact hat.symm
    · rw [member?_check_object options unknown hother name siblings hkeys hentry, hcheck]
      exact hmember.symm

/-- A stay, and until when it is if it is overnight. -/
def stayKeys : Keys :=
  [("stay", text.required), ("until", chosenBy "stay" (.str "night") date.required any)]

/-- The last day is missing for a stay overnight, whatever else is filled in. -/
theorem check_object_memberwise_stay :
    let outcome (fields : Fields) :=
      (Rule.object stayKeys false {}).check {} rootName none (some (.obj fields))
    let fields : Fields := [("pets", .bool true), ("stay", .str "night")]
    let other : Fields := [("guests", .ofNat 2), ("meals", .null), ("stay", .str "night")]
    (outcome fields).failures =
      [⟨["until"], "until", .missing⟩, ⟨["pets"], "pets", .unknownKey⟩] ∧
    failuresAt "until" (outcome other).failures = failuresAt "until" (outcome fields).failures := by
  intro outcome fields other
  refine ⟨by decide +kernel, ?_⟩
  have hkeys : stayKeys.names.Nodup := by decide
  have hordered : fields.Ordered := List.pairwise_pair.mpr (by decide)
  have hallow : ({} : Attributes).allows (.obj fields) = false := rfl
  have hmemberwise := check_object_memberwise {} hkeys false hordered hallow rootName none
  have huntil := hmemberwise.2.2 ("until", chosenBy "stay" (.str "night") date.required any) (by
    simp [stayKeys])
  refine (huntil.2.2 other rfl (by decide) ?_).1
  decide +kernel

/-- An object that is welcome as it is keeps what its members' rules would refuse, and one that is none
of those asked for fails as a whole although every member passes. -/
theorem check_object_not_memberwise :
    let keys : Keys := [("name", text.required)]
    let outcome (a : Attributes) (fields : Fields) :=
      (Rule.object keys false a).check {} rootName none (some (.obj fields))
    failuresAt "name" (outcome { allow := [.obj []] } []).failures = [] ∧
    (text.required.check {} "name" (some []) none).failures = [⟨[], "name", .missing⟩] ∧
    (outcome { valid := some [.obj []] } [("name", .str "Ann")]).failures =
      [⟨[], rootName, .notAmong [.obj []]⟩] ∧
    text.required.check {} "name" (some [("name", .str "Ann")]) (some (.str "Ann")) =
      .pass (.str "Ann") := by
  decide +kernel

end Rule

end Questionnaire
