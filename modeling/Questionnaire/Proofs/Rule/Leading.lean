import Questionnaire.Proofs.Rule.Conforming
import Questionnaire.Proofs.Rule.Locality

/-!
# Where the places of failures lead

The place of a failure is made of keys of objects and indices of arrays. Read from the outside in, it
leads into the value that was validated (`Json.resolve?`), whatever the rule and the settings are: to
the value that is refused, or, when a member is missing, to the object that lacks it
(`Failure.LeadsInto`). One step further out a place leads as far (`LeadsInto.under`), so this holds of
every check because it holds at the value itself (`Rule.leads_of_mem_check`).
-/

namespace Questionnaire

/-! ## Places in a value -/

namespace Json

/-- The value one step inside: an object's member of that key, or an array's item of that index. -/
def inside? (value : Json) (step : String) : Option Json :=
  match value with
  | .obj fields => Fields.get? fields step
  | .arr items => (items.zipIdx.find? fun item => toString item.2 == step).map (·.1)
  | _ => none

/-- The value to which keys and indices lead, one after another. -/
def resolve? : Json → List String → Option Json
  | value, [] => some value
  | value, step :: path => (value.inside? step).bind fun inner => inner.resolve? path

theorem inside?_item {items : List Json} {index : Nat} {item : Json}
    (h : items[index]? = some item) : (Json.arr items).inside? (toString index) = some item := by
  obtain ⟨hindex, hitem⟩ := List.getElem?_eq_some_iff.mp h
  have hfind : (items.zipIdx.find? fun item => toString item.2 == toString index) =
      some (item, index) := by
    refine List.find?_eq_some_iff_getElem.mpr ⟨by simp, index, by simpa using hindex, ?_, ?_⟩
    · simp [hitem]
    · intro earlier hearlier
      rw [List.getElem_zipIdx, Bool.not_eq_true', beq_eq_false_iff_ne]
      intro heq
      have hdigits := congrArg (fun text => digitsValue text.toList) heq
      simp only [digitsValue_toString] at hdigits
      omega
  rw [inside?, hfind]
  rfl

theorem resolve?_append (value : Json) (path rest : List String) :
    value.resolve? (path ++ rest) = (value.resolve? path).bind (·.resolve? rest) := by
  induction path generalizing value with
  | nil => rfl
  | cons step path ih =>
      rw [List.cons_append, resolve?, resolve?, Option.bind_assoc]
      exact Option.bind_congr fun inner _ => ih inner

/-- On the way to a value there are values. -/
theorem exists_resolve?_of_prefix {value found : Json} {before path : List String}
    (hbefore : before <+: path) (h : value.resolve? path = some found) :
    ∃ inner, value.resolve? before = some inner := by
  obtain ⟨rest, rfl⟩ := hbefore
  rw [resolve?_append] at h
  obtain ⟨inner, hinner, -⟩ := Option.bind_eq_some_iff.mp h
  exact ⟨inner, hinner⟩

end Json

theorem Fields.exists_get?_of_mem {fields : Fields} {member : String × Json}
    (h : member ∈ fields) : ∃ value, fields.get? member.1 = some value := by
  by_contra hnone
  rw [← Option.ne_none_iff_exists', not_not, get?, Option.map_eq_none_iff, List.find?_eq_none]
    at hnone
  exact hnone member h (beq_self_eq_true _)

/-! ## Failures that lead into a value -/

namespace Failure

/-- A failure leads into a value: its place is in the value or, if it is that a member is missing, an
object is there that has no member of the last key. -/
inductive LeadsInto (failure : Failure) (value : Json) : Prop
  | found {inner : Json} (hfault : failure.fault ≠ .missing)
      (h : value.resolve? failure.path = some inner)
  | lacking {steps : List String} {key : String} {fields : Fields}
      (hfault : failure.fault = .missing) (hpath : failure.path = steps ++ [key])
      (hobject : value.resolve? steps = some (.obj fields)) (hkey : fields.get? key = none)

/-- A failure leads into what was given. Where nothing was, that itself is the failure. -/
def Leads (failure : Failure) : Option Json → Prop
  | some value => failure.LeadsInto value
  | none => failure.path = [] ∧ failure.fault = .missing

variable {failure : Failure} {value inner : Json}

theorem leadsInto_of_path_nil (hpath : failure.path = []) (hfault : failure.fault ≠ .missing) :
    failure.LeadsInto value :=
  .found hfault (by rw [hpath]; rfl)

/-- A failure that leads into a value leads, one step further out, into the value around it. -/
theorem LeadsInto.under {step : String} (hstep : value.inside? step = some inner)
    (h : failure.LeadsInto inner) : (failure.under step).LeadsInto value := by
  have houter (path : List String) : value.resolve? (step :: path) = inner.resolve? path := by
    rw [Json.resolve?, hstep, Option.bind_some]
  cases h with
  | found hfault h => exact .found hfault ((houter failure.path).trans h)
  | @lacking steps _ _ hfault hpath hobject hkey =>
      have hunder : (failure.under step).path = (step :: steps) ++ [_] := congrArg (step :: ·) hpath
      exact .lacking hfault hunder ((houter steps).trans hobject) hkey

/-- At a key, a failure of what is given there, if anything is, leads into the object. -/
theorem Leads.under {fields : Fields} {key : String} (h : failure.Leads (fields.get? key)) :
    (failure.under key).LeadsInto (.obj fields) := by
  cases hvalue : fields.get? key with
  | some given =>
      rw [hvalue] at h
      exact LeadsInto.under hvalue h
  | none =>
      rw [hvalue] at h
      obtain ⟨hpath, hfault⟩ := h
      exact .lacking hfault (show key :: failure.path = [] ++ [key] by rw [hpath]; rfl) rfl hvalue

end Failure

/-! ## Every failure of a check leads into the value -/

variable {failure : Failure}

theorem Attributes.leads_of_mem_apply {a : Attributes} {label : String} {onNull : Option Fault}
    {value : Option Json} {convert : Json → Checked} (hnull : onNull ≠ some .missing)
    (hconvert : ∀ given, failure ∈ (convert given).failures → failure.LeadsInto given)
    (h : failure ∈ (a.apply label onNull value convert).failures) : failure.Leads value := by
  cases value with
  | none =>
      unfold apply at h
      dsimp only at h
      split at h
      · exact List.mem_singleton.mp h ▸ ⟨rfl, rfl⟩
      · cases h
  | some given =>
      rcases mem_apply h with ⟨hpath, ⟨hnone, -⟩ | hfault | ⟨choices, hfault⟩⟩ | ⟨_, hgiven, -, h⟩
      · cases hnone
      · exact Failure.leadsInto_of_path_nil hpath fun hmissing => hnull (hmissing ▸ hfault)
      · exact Failure.leadsInto_of_path_nil hpath (by simp [hfault])
      · obtain rfl := Option.some.inj hgiven
        exact hconvert given h

theorem Checked.leadsInto_of_mem_fail {label : String} {fault : Fault} (hfault : fault ≠ .missing)
    {value : Json} (h : failure ∈ (Checked.fail label fault).failures) : failure.LeadsInto value := by
  obtain rfl := List.mem_singleton.mp h
  exact Failure.leadsInto_of_path_nil rfl hfault

namespace Rule

/-- A member without a rule is there. -/
theorem leadsInto_of_mem_checkUnknown {allowed : Bool} {keys : Keys} {fields : Fields}
    (h : failure ∈ (checkUnknown allowed keys fields).2) : failure.LeadsInto (.obj fields) := by
  obtain ⟨member, hmember, -, rfl⟩ := exists_of_mem_checkUnknown h
  obtain ⟨value, hvalue⟩ := Fields.exists_get?_of_mem hmember
  have hinside : (Json.obj fields).inside? member.1 = some value := hvalue
  have hhere : Failure.LeadsInto ⟨[], member.1, .unknownKey⟩ value :=
    Failure.leadsInto_of_path_nil rfl (by simp)
  exact hhere.under hinside

/-- What any rule finds wrong with a value, or with its absence, leads into it. -/
theorem leads_of_mem_check (options : ValidationOptions) (rule : Rule) {name : String}
    {siblings : Option Fields} {value : Option Json}
    (h : failure ∈ (rule.check options name siblings value).failures) : failure.Leads value := by
  induction rule using Rule.induction generalizing failure name siblings value with
  | leaf kind a =>
      rw [check] at h
      have hnull : (if kind = .any then none else some kind.mismatch) ≠ some .missing := by
        cases kind <;> simp [Leaf.mismatch]
      refine Attributes.leads_of_mem_apply hnull (fun given h => ?_) h
      obtain ⟨hpath, hfault⟩ := Leaf.mem_check h
      exact Failure.leadsInto_of_path_nil hpath (Fault.ne_of_isOfMember hfault rfl)
  | object keys unknown a ih =>
      rw [check] at h
      refine Attributes.leads_of_mem_apply (by decide) (fun given h => ?_) h
      split at h
      · rcases List.mem_append.mp h with h | h
        · obtain ⟨key, rule, hentry, inner, hinner, rfl⟩ := exists_of_mem_checkKeys h
          exact (ih _ hentry hinner).under
        · exact leadsInto_of_mem_checkUnknown h
      · exact Checked.leadsInto_of_mem_fail (by decide) h
  | array item a ih =>
      rw [check] at h
      refine Attributes.leads_of_mem_apply (by decide) (fun given h => ?_) h
      split at h
      · obtain ⟨checked, hchecked, h⟩ := List.mem_flatMap.mp h
        obtain ⟨⟨element, index⟩, helement, rfl⟩ := List.mem_map.mp hchecked
        obtain ⟨inner, hinner, rfl⟩ := List.mem_map.mp h
        have hitem := Json.inside?_item (List.mk_mem_zipIdx_iff_getElem?.mp helement)
        exact Failure.LeadsInto.under hitem (ih hinner)
      · exact Checked.leadsInto_of_mem_fail (by decide) h
  | alternatives rules a ih =>
      rw [check] at h
      refine Attributes.leads_of_mem_apply (by decide) (fun given h => ?_) h
      rcases mem_checkAlternatives h with rfl | ⟨failures, hnone, -⟩ | ⟨rule, hrule, h⟩
      · exact Failure.leadsInto_of_path_nil rfl (by simp)
      · cases hnone
      · exact ih rule hrule h
  | choose sibling is revealed hidden a ihr ihh =>
      rw [check_choose] at h
      split at h
      · exact ihr h
      · exact ihh h

/-- Failures lead into the validated value. Of the place of a failure every proper beginning is found
in the value by keys of objects and indices of arrays, and so is the whole place, except that a
failure that says that a member is required leads to an object that has no member of the last key. -/
theorem failures_lead {rule : Rule} {options : ValidationOptions} {value : Json}
    {failures : List Failure} (h : rule.validate options value = .error failures) :
    ∀ failure ∈ failures,
      (∀ before, before <+: failure.path → before ≠ failure.path →
        ∃ inner, value.resolve? before = some inner) ∧
      (failure.fault.code ≠ "any.required" → ∃ inner, value.resolve? failure.path = some inner) ∧
      (failure.fault.code = "any.required" → ∃ steps key fields, failure.path = steps ++ [key] ∧
        value.resolve? steps = some (.obj fields) ∧ Fields.get? fields key = none) := by
  intro failure hfailure
  obtain rfl : (rule.check options rootName none (some value)).failures = failures := by
    unfold validate at h
    dsimp only at h
    split at h
    · cases h
    · exact Except.error.inj h
  have hcode : failure.fault.code = "any.required" ↔ failure.fault = .missing := by
    cases failure.fault <;> simp [Fault.code]
  rw [ne_eq, hcode]
  cases (leads_of_mem_check options rule hfailure : failure.LeadsInto value) with
  | found hfault hfound =>
      exact ⟨fun before hbefore _ => Json.exists_resolve?_of_prefix hbefore hfound,
        fun _ => ⟨_, hfound⟩, fun hmissing => absurd hmissing hfault⟩
  | lacking hfault hpath hobject hkey =>
      refine ⟨fun before hbefore hne => ?_, fun hfound => absurd hfault hfound,
        fun _ => ⟨_, _, _, hpath, hobject, hkey⟩⟩
      -- A proper beginning goes no further than to the object.
      rw [hpath] at hbefore hne
      exact Json.exists_resolve?_of_prefix ((List.prefix_concat_iff.mp hbefore).resolve_left hne)
        hobject

/-- The second guest is refused for an age that is no number and for having no name, and the booking
for having no last day and for pets, which are not asked about. -/
theorem failures_lead_booking :
    let booking : Json := .obj
      [("guests", .arr [.obj [("name", .str "Ann")], .obj [("age", .str "old")]]),
        ("pets", .bool true), ("stay", .str "night")]
    bookingRule.validate {} booking = .error
      [⟨["guests", "1", "age"], "age", .notNumber⟩, ⟨["guests", "1", "name"], "name", .missing⟩,
        ⟨["until"], "until", .missing⟩, ⟨["pets"], "pets", .unknownKey⟩] ∧
    booking.resolve? ["guests", "1", "age"] = some (.str "old") ∧
    (∃ inner, booking.resolve? ["guests", "1", "age"] = some inner) ∧
    (∃ steps key fields, ["guests", "1", "name"] = steps ++ [key] ∧
      booking.resolve? steps = some (.obj fields) ∧ Fields.get? fields key = none) ∧
    ∃ inner, booking.resolve? ["pets"] = some inner := by
  intro booking
  have h : bookingRule.validate {} booking = .error
      [⟨["guests", "1", "age"], "age", .notNumber⟩, ⟨["guests", "1", "name"], "name", .missing⟩,
        ⟨["until"], "until", .missing⟩, ⟨["pets"], "pets", .unknownKey⟩] := by decide +kernel
  have hlead := failures_lead h
  simp only [List.forall_mem_cons] at hlead
  obtain ⟨hage, hname, -, hpets, -⟩ := hlead
  exact ⟨h, by decide +kernel, hage.2.1 (by decide), hname.2.2 rfl, hpets.2.1 (by decide)⟩

end Rule

end Questionnaire
