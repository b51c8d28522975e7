import Questionnaire.Proofs.Rule.Locality
import Questionnaire.Proofs.Rule.Revalidation

/-!
# Letting unknown members through

The settings of a validation may let members through that have no rule. They are kept, so an object is
converted to another one than without them; and of alternatives an earlier one may take a value that
it refused for an unknown member (`Sways`). Neither matters but where a rule asks the converted value
to be one of some values. Otherwise what is accepted stays accepted, and without alternatives the same
is found but for the unknown members themselves (`validate_leniently`).
-/

namespace Questionnaire

namespace ValidationOptions

/-- Members without a rule are refused. -/
def strict : ValidationOptions := { allowUnknown := false }

/-- Members without a rule are let through. -/
def lenient : ValidationOptions := { allowUnknown := true }

end ValidationOptions

/-- Attributes that do not ask for one of some values let through whatever becomes of a value. -/
theorem Attributes.Frames.exists_of_valid {a : Attributes}
    {converts converts' : Json → Json → Prop} {value converted : Option Json}
    (h : a.Frames converts value converted) (hvalid : a.valid = none)
    (himp : ∀ v w, value = some v → a.allows v = false → converts v w → ∃ w', converts' v w') :
    ∃ converted', a.Frames converts' value converted' := by
  cases h with
  | absent hrequired => exact ⟨_, .absent hrequired⟩
  | allowed hallows => exact ⟨_, .allowed hallows⟩
  | converted hallows h _ =>
      obtain ⟨w', hw'⟩ := himp _ _ rfl hallows h
      refine ⟨_, .converted hallows hw' (.inr fun choices hchoices => ?_)⟩
      exact nomatch hvalid.symm.trans hchoices

/-- What matters of the conversion is what it makes of a value that is not accepted as it is. -/
theorem Attributes.apply_congr {a : Attributes} {label : String} {onNull : Option Fault}
    {value : Option Json} {convert convert' : Json → Checked}
    (h : ∀ v, value = some v → a.allows v = false → convert v = convert' v) :
    a.apply label onNull value convert = a.apply label onNull value convert' := by
  cases value with
  | none => rfl
  | some v =>
      cases hallows : a.allows v with
      | true => simp only [apply, hallows, if_pos]
      | false =>
          have hconvert := h v rfl hallows
          cases v <;> cases onNull <;> simp only [apply, hallows, hconvert]

/-- Only the conversion finds unknown members. -/
theorem Attributes.exists_of_unknownKey {a : Attributes} {label : String} {onNull : Option Fault}
    {value : Option Json} {convert : Json → Checked} {failure : Failure}
    (hnull : onNull ≠ some .unknownKey)
    (h : failure ∈ (a.apply label onNull value convert).failures)
    (hunknown : failure.fault = .unknownKey) :
    ∃ v, value = some v ∧ a.allows v = false ∧ failure ∈ (convert v).failures := by
  refine (mem_apply h).resolve_left ?_
  rw [hunknown]
  rintro ⟨-, ⟨-, hmissing⟩ | hnull' | ⟨choices, hamong⟩⟩
  · cases hmissing
  · exact hnull hnull'
  · cases hamong

namespace Rule

open ValidationOptions

/-! ## Where the settings matter -/

/-- What may hold of a rule, the siblings of a value, and the value. -/
abbrev Site := Rule → Option Fields → Json → Prop

/-- A strict check of a value comes to a site, at the rule itself or at one inside it. What is
accepted as it is is not looked into, and of alternatives the one that takes the value counts. -/
inductive Reaches (site : Site) : Site
  | here {rule : Rule} {siblings : Option Fields} {value : Json} (h : site rule siblings value) :
      Reaches site rule siblings value
  | branch {sibling : String} {is : Json} {revealed hidden : Rule} {a : Attributes}
      {siblings : Option Fields} {value : Json}
      (h : Reaches site (if picks siblings sibling is then revealed else hidden) siblings value) :
      Reaches site (.choose sibling is revealed hidden a) siblings value
  | item {item : Rule} {a : Attributes} {siblings : Option Fields} {items : List Json} {x : Json}
      (hallows : a.allows (.arr items) = false) (hx : x ∈ items) (h : Reaches site item none x) :
      Reaches site (.array item a) siblings (.arr items)
  | member {keys : List (String × Rule)} {unknown : Bool} {a : Attributes}
      {siblings : Option Fields} {fields : Fields} {entry : String × Rule} {value : Json}
      (hallows : a.allows (.obj fields) = false) (hentry : entry ∈ keys)
      (hvalue : fields.get? entry.1 = some value)
      (h : Reaches site entry.2 (some fields) value) :
      Reaches site (.object keys unknown a) siblings (.obj fields)
  | alternative {rules before after : List Rule} {rule : Rule} {a : Attributes}
      {siblings : Option Fields} {value converted : Json} (hallows : a.allows value = false)
      (hrules : rules = before ++ rule :: after)
      (hfirst : TakesFirst strict siblings before rule value converted)
      (h : Reaches site rule siblings value) : Reaches site (.alternatives rules a) siblings value

/-- An earlier alternative takes a value once unknown members are let through, and converts it to
something else than the one that takes it as long as they are not. -/
inductive Sways : Site
  | alternatives {rules earlier later after : List Rule} {other rule : Rule} {a : Attributes}
      {siblings : Option Fields} {value converted different : Json}
      (hallows : a.allows value = false)
      (hrules : rules = earlier ++ other :: later ++ rule :: after)
      (hfirst : TakesFirst strict siblings (earlier ++ other :: later) rule value converted)
      (hother : TakesFirst lenient siblings earlier other value different)
      (hne : different ≠ converted) : Sways (.alternatives rules a) siblings value

/-- The values that a rule asks a converted value to be one of. A choice leaves that to its
branches. -/
def choices? : Rule → Option (List Json)
  | .choose _ _ _ _ _ => none
  | rule => rule.attributes.valid

/-- A rule asks for one of some values where alternatives inside it are swayed. -/
def Contests : Site := fun rule siblings value =>
  rule.choices? ≠ none ∧ Reaches Sways rule siblings value

/-- Rules that have no alternatives in them. -/
inductive Unambiguous : Rule → Prop
  | leaf {kind : Leaf} {a : Attributes} : Unambiguous (.leaf kind a)
  | object {keys : List (String × Rule)} {unknown : Bool} {a : Attributes}
      (h : ∀ entry ∈ keys, Unambiguous entry.2) : Unambiguous (.object keys unknown a)
  | array {item : Rule} {a : Attributes} (h : Unambiguous item) : Unambiguous (.array item a)
  | choose {sibling : String} {is : Json} {revealed hidden : Rule} {a : Attributes}
      (hrevealed : Unambiguous revealed) (hhidden : Unambiguous hidden) :
      Unambiguous (.choose sibling is revealed hidden a)

/-! ## Two checks of an object and of an array -/

section

variable {options options' : ValidationOptions} {keys : Keys} {fields : Fields}

theorem checkKeys_congr
    (h : ∀ entry ∈ keys, entry.2.check options entry.1 (some fields) (fields.get? entry.1) =
      entry.2.check options' entry.1 (some fields) (fields.get? entry.1)) :
    checkKeys options keys fields = checkKeys options' keys fields := by
  induction keys with
  | nil => rfl
  | cons entry rest ih =>
      obtain ⟨key, rule⟩ := entry
      obtain ⟨hentry, hrest⟩ := List.forall_mem_cons.mp h
      rw [checkKeys_cons, checkKeys_cons, hentry, ih hrest]

/-- Where no unknown member is refused none is left to be let through. -/
theorem checkUnknown_lenient {allowed : Bool} (h : (checkUnknown allowed keys fields).2 = []) :
    checkUnknown true keys fields = checkUnknown allowed keys fields := by
  rcases checkUnknown_failures_eq_nil_iff.mp h with rfl | hknown
  · rfl
  · rw [checkUnknown_of_has hknown, checkUnknown_of_has hknown]

end

theorem check_array_of_not_allowed (options : ValidationOptions) (item : Rule) {a : Attributes}
    {items : List Json} (hallows : a.allows (.arr items) = false) (name : String)
    (siblings : Option Fields) :
    (Rule.array item a).check options name siblings (some (.arr items)) =
      let checks := items.zipIdx.map fun (x, index) =>
        (item.check options (a.label.getD name) none (some x)).under (toString index)
      let converted := Json.arr (checks.filterMap (·.value))
      ⟨some converted, checks.flatMap (·.failures) ++
        a.remaining (a.label.getD name) (.arr items) converted⟩ := by
  have hnull : Json.arr items ≠ .null := by rintro ⟨⟩
  rw [check, Attributes.apply_some hallows hnull]
  exact Attributes.finish_some ..

/-! ## What stays accepted -/

/-- What is accepted strictly is accepted leniently and converted to the same, unless alternatives
are swayed. -/
theorem Takes.leniently {rule : Rule} {siblings : Option Fields} {value converted : Option Json}
    (h : rule.Takes strict siblings value converted)
    (hsways : ∀ v, value = some v → ¬ Reaches Sways rule siblings v) :
    rule.Takes lenient siblings value converted := by
  induction rule using Rule.induction generalizing siblings value converted with
  | leaf kind a => exact takes_leaf_iff.mpr (takes_leaf_iff.mp h)
  | object keys unknown a ih =>
      refine check_object_eq_iff.mpr ((check_object_eq_iff.mp h).imp ?_)
      rintro _ _ rfl hallows @⟨fields, hknown, hunknown⟩
      have hkeys : checkKeys lenient keys fields = checkKeys strict keys fields := by
        refine checkKeys_congr fun entry hentry => ?_
        have htakes := Checked.eq_of_passes (checkKeys_failures_eq_nil_iff.mp hknown entry hentry)
        rw [htakes]
        refine (takes_iff _).mp (ih entry hentry ((takes_iff _).mpr htakes) ?_)
        exact fun v hv hreaches => hsways _ rfl (.member hallows hentry hv hreaches)
      have hrefused := checkUnknown_lenient hunknown
      rw [← hkeys] at hknown ⊢
      rw [← hrefused] at hunknown ⊢
      rw [show (unknown || lenient.allowUnknown) = true from Bool.or_true _]
      exact .members hknown hunknown
  | array item a ih =>
      refine takes_array_iff.mpr ((takes_array_iff.mp h).imp ?_)
      rintro _ _ rfl hallows ⟨hitems⟩
      refine .items (((List.forall₂_and_left _ _).mpr ⟨fun x hx => hx, hitems⟩).imp ?_)
      rintro x y ⟨hx, htakes⟩
      refine ih htakes fun v hv hreaches => ?_
      exact hsways _ rfl (.item hallows (Option.some.inj hv ▸ hx) hreaches)
  | alternatives rules a ih =>
      refine takes_alternatives_iff.mpr ((takes_alternatives_iff.mp h).imp ?_)
      rintro v w rfl hallows ⟨hne, before, rule, after, rfl, hfirst⟩
      refine ⟨hne, ?_⟩
      -- Either all before `rule` refuse the value leniently too, or one of them takes it first.
      by_cases hrefused : ∀ other ∈ before, other.Refuses lenient siblings v
      · refine ⟨before, rule, after, rfl, hrefused, ih rule (by simp) hfirst.takes ?_⟩
        intro v hv hreaches
        obtain rfl := Option.some.inj hv
        exact hsways _ rfl (.alternative hallows rfl hfirst hreaches)
      · obtain ⟨earlier, other, later, different, rfl, hother⟩ := exists_takesFirst hrefused
        obtain rfl : different = w := by
          by_contra hne
          exact hsways v rfl (.here (.alternatives hallows rfl hfirst hother hne))
        exact ⟨earlier, other, later ++ rule :: after, by simp, hother⟩
  | choose sibling is revealed hidden a ihr ihh =>
      rw [takes_choose_iff] at h ⊢
      have hsways' := fun v hv hreaches => hsways v hv (.branch hreaches)
      split at h
      · next hpicks =>
        rw [if_pos hpicks] at hsways' ⊢
        exact ihr h hsways'
      · next hpicks =>
        rw [if_neg hpicks] at hsways' ⊢
        exact ihh h hsways'

theorem exists_forall₂ {takes takes' : Json → Json → Prop} {items items' : List Json}
    (h : List.Forall₂ takes items items')
    (himp : ∀ x ∈ items, ∀ y, takes x y → ∃ y', takes' x y') :
    ∃ items'', List.Forall₂ takes' items items'' := by
  induction h with
  | nil => exact ⟨[], .nil⟩
  | cons hx _ ih =>
      obtain ⟨y, hy⟩ := himp _ (List.mem_cons_self ..) _ hx
      obtain ⟨ys, hys⟩ := ih fun x hx => himp x (List.mem_cons_of_mem _ hx)
      exact ⟨y :: ys, .cons hy hys⟩

/-- What is accepted strictly is accepted leniently, unless the converted value must be one of some
values where alternatives are swayed. -/
theorem Takes.exists_leniently {rule : Rule} {siblings : Option Fields}
    {value converted : Option Json} (h : rule.Takes strict siblings value converted)
    (hcontests : ∀ v, value = some v → ¬ Reaches Contests rule siblings v) :
    ∃ converted', rule.Takes lenient siblings value converted' := by
  induction rule using Rule.induction generalizing siblings value converted with
  | leaf kind a => exact ⟨converted, takes_leaf_iff.mpr (takes_leaf_iff.mp h)⟩
  | choose sibling is revealed hidden a ihr ihh =>
      rw [takes_choose_iff] at h
      simp only [takes_choose_iff]
      have hcontests' := fun v hv hreaches => hcontests v hv (.branch hreaches)
      split at h
      · next hpicks =>
        rw [if_pos hpicks] at hcontests' ⊢
        exact ihr h hcontests'
      · next hpicks =>
        rw [if_neg hpicks] at hcontests' ⊢
        exact ihh h hcontests'
  | object keys unknown a ih =>
      by_cases hvalid : a.valid = none
      · refine ((check_object_eq_iff.mp h).exists_of_valid hvalid ?_).imp
          fun _ => check_object_eq_iff.mpr
        rintro v w rfl hallows ⟨hknown, -⟩
        refine ⟨_, .members (checkKeys_failures_eq_nil_iff.mpr fun entry hentry => ?_)
          (checkUnknown_failures_eq_nil_iff.mpr (.inl (Bool.or_true _)))⟩
        have htakes := Checked.eq_of_passes (checkKeys_failures_eq_nil_iff.mp hknown entry hentry)
        obtain ⟨member, hmember⟩ := ih entry hentry ((takes_iff _).mpr htakes)
          fun v hv hreaches => hcontests _ rfl (.member hallows hentry hv hreaches)
        exact congrArg Checked.failures ((takes_iff _).mp hmember)
      · exact ⟨_, h.leniently fun v hv hsways => hcontests v hv (.here ⟨hvalid, hsways⟩)⟩
  | array item a ih =>
      by_cases hvalid : a.valid = none
      · refine ((takes_array_iff.mp h).exists_of_valid hvalid ?_).imp fun _ => takes_array_iff.mpr
        rintro v w rfl hallows ⟨hitems⟩
        refine (exists_forall₂ hitems fun x hx y htakes => ?_).imp' Json.arr fun _ => .items
        obtain ⟨y', hy'⟩ := ih htakes fun v hv hreaches =>
          hcontests _ rfl (.item hallows (Option.some.inj hv ▸ hx) hreaches)
        obtain ⟨y', rfl⟩ := hy'.exists_some
        exact ⟨y', hy'⟩
      · exact ⟨_, h.leniently fun v hv hsways => hcontests v hv (.here ⟨hvalid, hsways⟩)⟩
  | alternatives rules a ih =>
      by_cases hvalid : a.valid = none
      · refine ((takes_alternatives_iff.mp h).exists_of_valid hvalid ?_).imp
          fun _ => takes_alternatives_iff.mpr
        rintro v w rfl hallows ⟨hne, before, rule, after, rfl, hfirst⟩
        have hpasses : ¬ ∀ other ∈ before ++ rule :: after, other.Refuses lenient siblings v := by
          intro hrefused
          obtain ⟨w', hw'⟩ := ih rule (by simp) hfirst.takes fun v' hv hreaches =>
            hcontests _ rfl (.alternative hallows rfl hfirst (Option.some.inj hv ▸ hreaches))
          obtain ⟨w', rfl⟩ := hw'.exists_some
          exact hrefused rule (by simp) w' hw'
        obtain ⟨before', rule', after', w', hrules, hfirst'⟩ := exists_takesFirst hpasses
        exact ⟨w', hne, before', rule', after', hrules, hfirst'⟩
      · exact ⟨_, h.leniently fun v hv hsways => hcontests v hv (.here ⟨hvalid, hsways⟩)⟩

/-! ## What is found without alternatives -/

/-- Where no unknown member is found, the settings make no difference. -/
theorem Unambiguous.check_lenient {rule : Rule} (hrule : rule.Unambiguous) {name : String}
    {siblings : Option Fields} {value : Option Json}
    (hknown : ∀ failure ∈ (rule.check strict name siblings value).failures,
      failure.fault ≠ .unknownKey) :
    rule.check lenient name siblings value = rule.check strict name siblings value := by
  induction hrule generalizing name siblings value with
  | leaf => rw [check, check]
  | @object keys unknown a _ ih =>
      rw [check, check]
      refine Attributes.apply_congr fun v hv hallows => ?_
      cases v with
      | obj fields =>
          rw [hv, check_object_of_not_allowed strict unknown hallows] at hknown
          have hkeys : checkKeys lenient keys fields = checkKeys strict keys fields := by
            refine checkKeys_congr fun entry hentry => ih entry hentry fun failure hfailure => ?_
            refine hknown (failure.under entry.1) ?_
            refine List.mem_append_left _ (List.mem_append_left _ ?_)
            rw [checkKeys_failures]
            exact List.mem_flatMap.mpr ⟨entry, hentry, List.mem_map_of_mem hfailure⟩
          have hrefused : (checkUnknown (unknown || strict.allowUnknown) keys fields).2 = [] := by
            refine List.eq_nil_iff_forall_not_mem.mpr fun failure hfailure => ?_
            obtain ⟨key, rfl⟩ := eq_of_mem_checkUnknown hfailure
            exact hknown _ (List.mem_append_left _ (List.mem_append_right _ hfailure)) rfl
          dsimp only
          rw [hkeys, ← checkUnknown_lenient hrefused,
            show (unknown || lenient.allowUnknown) = true from Bool.or_true _]
      | _ => rfl
  | @array item a _ ih =>
      rw [check, check]
      refine Attributes.apply_congr fun v hv hallows => ?_
      cases v with
      | arr items =>
          rw [hv, check_array_of_not_allowed strict item hallows] at hknown
          dsimp only
          rw [List.map_congr_left]
          rintro ⟨x, index⟩ hx
          refine congrArg (Checked.under (toString index)) (ih fun failure hfailure => ?_)
          refine hknown (failure.under (toString index)) (List.mem_append_left _ ?_)
          exact List.mem_flatMap.mpr ⟨_, List.mem_map_of_mem hx, List.mem_map_of_mem hfailure⟩
      | _ => rfl
  | @choose sibling is revealed hidden a _ _ ihr ihh =>
      rw [check_choose] at hknown
      rw [check_choose, check_choose]
      split at hknown
      · next hpicks =>
        rw [if_pos hpicks]
        exact ihr hknown
      · next hpicks =>
        rw [if_neg hpicks]
        exact ihh hknown

/-- None of the failures that are kept is that a value in which an unknown member is found is none of
those asked for. -/
def Spares (keep : Failure → Bool) (found : List Failure) : Prop :=
  ∀ failure, keep failure = true → ∀ other ∈ found, other.fault = .unknownKey →
    failure.path <+: other.path → ∀ choices, failure.fault ≠ .notAmong choices

theorem Spares.under {keep : Failure → Bool} {found inner : List Failure} (h : Spares keep found)
    (step : String) (hinner : ∀ failure ∈ inner, failure.under step ∈ found) :
    Spares (keep ∘ Failure.under step) inner :=
  fun failure hkeep other hother hunknown hpath =>
    h (failure.under step) hkeep (other.under step) (hinner other hother) hunknown
      ((List.prefix_cons_inj step).mpr hpath)

theorem not_keep_of_mem_remaining {keep : Failure → Bool} {found : List Failure}
    (hkeep : Spares keep found) (hunknown : ∃ other ∈ found, other.fault = .unknownKey)
    {a : Attributes} {label : String} {value converted : Json} :
    ∀ failure ∈ a.remaining label value converted, ¬ keep failure = true := by
  intro failure hfailure hkept
  obtain ⟨other, hother, hunknown⟩ := hunknown
  unfold Attributes.remaining at hfailure
  split at hfailure
  · cases hfailure
  · next choices _ =>
    split at hfailure
    · cases hfailure
    · obtain rfl := List.mem_singleton.mp hfailure
      exact hkeep _ hkept other hother hunknown List.nil_prefix choices rfl

theorem ruleFailures_eq_self {failures : List Failure}
    (h : ∀ failure ∈ failures, failure.fault ≠ .unknownKey) : ruleFailures failures = failures :=
  List.filter_eq_self.mpr fun failure hfailure => decide_eq_true (h failure hfailure)

theorem fault_ne_unknownKey_of_leaf {options : ValidationOptions} {kind : Leaf} {a : Attributes}
    {name : String} {siblings : Option Fields} {value : Option Json} :
    ∀ failure ∈ ((Rule.leaf kind a).check options name siblings value).failures,
      failure.fault ≠ .unknownKey := by
  intro failure hfailure hunknown
  rw [check] at hfailure
  have hnull : (if kind = .any then none else some kind.mismatch) ≠ some .unknownKey := by
    cases kind <;> simp [Leaf.mismatch]
  obtain ⟨v, -, -, hfailure⟩ := Attributes.exists_of_unknownKey hnull hfailure hunknown
  exact Fault.ne_of_isOfMember (Leaf.mem_check hfailure).2 rfl hunknown

/-- Unknown members are found in an object that is not accepted as it is. -/
theorem exists_obj_of_unknownKey {options : ValidationOptions} {keys : Keys} {unknown : Bool}
    {a : Attributes} {name : String} {siblings : Option Fields} {value : Option Json}
    {failure : Failure}
    (h : failure ∈ ((Rule.object keys unknown a).check options name siblings value).failures)
    (hunknown : failure.fault = .unknownKey) :
    ∃ fields, value = some (.obj fields) ∧ a.allows (.obj fields) = false := by
  rw [check] at h
  obtain ⟨v, rfl, hallows, h⟩ := Attributes.exists_of_unknownKey (by decide) h hunknown
  cases v with
  | obj fields => exact ⟨fields, rfl, hallows⟩
  | _ =>
      rw [List.mem_singleton.mp h] at hunknown
      cases hunknown

/-- Unknown members are found among the items of an array that is not accepted as it is. -/
theorem exists_arr_of_unknownKey {options : ValidationOptions} {item : Rule} {a : Attributes}
    {name : String} {siblings : Option Fields} {value : Option Json} {failure : Failure}
    (h : failure ∈ ((Rule.array item a).check options name siblings value).failures)
    (hunknown : failure.fault = .unknownKey) :
    ∃ items, value = some (.arr items) ∧ a.allows (.arr items) = false := by
  rw [check] at h
  obtain ⟨v, rfl, hallows, h⟩ := Attributes.exists_of_unknownKey (by decide) h hunknown
  cases v with
  | arr items => exact ⟨items, rfl, hallows⟩
  | _ =>
      rw [List.mem_singleton.mp h] at hunknown
      cases hunknown

theorem filter_remaining {keep : Failure → Bool} {found : List Failure} (hkeep : Spares keep found)
    (hunknown : ∃ other ∈ found, other.fault = .unknownKey) (a : Attributes) (label : String)
    (value converted : Json) : (a.remaining label value converted).filter keep = [] :=
  List.filter_eq_nil_iff.mpr (not_keep_of_mem_remaining hkeep hunknown)

theorem filter_ruleFailures_remaining {keep : Failure → Bool} {found : List Failure}
    (hkeep : Spares keep found) (hunknown : ∃ other ∈ found, other.fault = .unknownKey)
    (a : Attributes) (label : String) (value converted : Json) :
    (ruleFailures (a.remaining label value converted)).filter keep = [] :=
  List.filter_eq_nil_iff.mpr fun failure hfailure =>
    not_keep_of_mem_remaining hkeep hunknown failure (List.mem_of_mem_filter hfailure)

theorem Unambiguous.filter_check_of_known {rule : Rule} (hrule : rule.Unambiguous) {name : String}
    {siblings : Option Fields} {value : Option Json} (keep : Failure → Bool)
    (hknown : ¬ ∃ failure ∈ (rule.check strict name siblings value).failures,
      failure.fault = .unknownKey) :
    (rule.check lenient name siblings value).failures.filter keep =
      (ruleFailures (rule.check strict name siblings value).failures).filter keep := by
  push Not at hknown
  rw [hrule.check_lenient hknown, ruleFailures_eq_self hknown]

/-- Without alternatives the same is found leniently, save for the unknown members. -/
theorem Unambiguous.filter_check_lenient {rule : Rule} (hrule : rule.Unambiguous) {name : String}
    {siblings : Option Fields} {value : Option Json} {keep : Failure → Bool}
    (hkeep : Spares keep (rule.check strict name siblings value).failures) :
    (rule.check lenient name siblings value).failures.filter keep =
      (ruleFailures (rule.check strict name siblings value).failures).filter keep := by
  induction hrule generalizing name siblings value keep with
  | leaf =>
      refine Unambiguous.leaf.filter_check_of_known keep ?_
      rintro ⟨failure, hfailure, hunknown⟩
      exact fault_ne_unknownKey_of_leaf failure hfailure hunknown
  | @object keys unknown a hkeys ih =>
      by_cases hfound : ∃ failure ∈ ((Rule.object keys unknown a).check strict name siblings
          value).failures, failure.fault = .unknownKey
      · have ⟨failure, hfailure, hunknown⟩ := hfound
        obtain ⟨fields, rfl, hallows⟩ := exists_obj_of_unknownKey hfailure hunknown
        have hlenient := filter_remaining hkeep hfound a (a.label.getD name) (.obj fields)
        have hstrict := filter_ruleFailures_remaining hkeep hfound a (a.label.getD name) (.obj fields)
        have hunknown : (checkUnknown (unknown || lenient.allowUnknown) keys fields).2 = [] :=
          checkUnknown_failures_eq_nil_iff.mpr (.inl (Bool.or_true _))
        rw [check_object_of_not_allowed strict unknown hallows] at hkeep
        rw [check_object_of_not_allowed lenient unknown hallows,
          check_object_of_not_allowed strict unknown hallows]
        simp only [List.filter_append, ruleFailures_append, ruleFailures_checkUnknown, hlenient,
          hstrict, hunknown, List.append_nil]
        rw [checkKeys_failures, ruleFailures_checkKeys, List.filter_flatMap, List.filter_flatMap]
        refine List.flatMap_congr fun entry hentry => ?_
        rw [List.filter_map, List.filter_map, ih entry hentry]
        refine hkeep.under entry.1 fun failure hfailure => ?_
        refine List.mem_append_left _ (List.mem_append_left _ ?_)
        rw [checkKeys_failures]
        exact List.mem_flatMap.mpr ⟨entry, hentry, List.mem_map_of_mem hfailure⟩
      · exact (Unambiguous.object hkeys).filter_check_of_known keep hfound
  | @array item a hitem ih =>
      by_cases hfound : ∃ failure ∈ ((Rule.array item a).check strict name siblings
          value).failures, failure.fault = .unknownKey
      · have ⟨failure, hfailure, hunknown⟩ := hfound
        obtain ⟨items, rfl, hallows⟩ := exists_arr_of_unknownKey hfailure hunknown
        have hlenient := filter_remaining hkeep hfound a (a.label.getD name) (.arr items)
        have hstrict := filter_ruleFailures_remaining hkeep hfound a (a.label.getD name) (.arr items)
        rw [check_array_of_not_allowed strict item hallows] at hkeep
        rw [check_array_of_not_allowed lenient item hallows,
          check_array_of_not_allowed strict item hallows]
        simp only [List.filter_append, ruleFailures_append, hlenient, hstrict, List.append_nil]
        rw [ruleFailures_flatMap, List.filter_flatMap, List.filter_flatMap, List.flatMap_map,
          List.flatMap_map]
        refine List.flatMap_congr ?_
        rintro ⟨x, index⟩ hx
        dsimp only [Checked.under]
        rw [ruleFailures_map_under, List.filter_map, List.filter_map, ih]
        refine hkeep.under (toString index) fun failure hfailure => List.mem_append_left _ ?_
        exact List.mem_flatMap.mpr ⟨_, List.mem_map_of_mem hx, List.mem_map_of_mem hfailure⟩
      · exact (Unambiguous.array hitem).filter_check_of_known keep hfound
  | @choose sibling is revealed hidden a _ _ ihr ihh =>
      rw [check_choose] at hkeep
      rw [check_choose, check_choose]
      split at hkeep
      · next hpicks =>
        rw [if_pos hpicks]
        exact ihr hkeep
      · next hpicks =>
        rw [if_neg hpicks]
        exact ihh hkeep

/-! ## Validation -/

/-- What validation finds wrong with a value. -/
def failures (rule : Rule) (options : ValidationOptions) (value : Json) : List Failure :=
  match rule.validate options value with
  | .ok _ => []
  | .error failures => failures

theorem failures_eq (rule : Rule) (options : ValidationOptions) (value : Json) :
    rule.failures options value = (rule.check options rootName none (some value)).failures := by
  unfold failures validate
  dsimp only
  by_cases hpasses : (rule.check options rootName none (some value)).failures = []
  · simp [hpasses]
  · simp [hpasses]

/-- A failure says that a value is none of those asked for, and an unknown member is found in it. -/
def countsUnknown (found : List Failure) (failure : Failure) : Bool :=
  (match failure.fault with
    | .notAmong _ => true
    | _ => false) &&
    found.any fun other => other.fault = .unknownKey && failure.path.isPrefixOf other.path

theorem spares_countsUnknown (found : List Failure) :
    Spares (fun failure => !countsUnknown found failure) found := by
  intro failure hkeep other hother hunknown hpath choices hfault
  have hcounts : countsUnknown found failure = true := by
    simp only [countsUnknown, hfault, Bool.true_and, List.any_eq_true, Bool.and_eq_true,
      decide_eq_true_eq]
    exact ⟨other, hother, hunknown, List.isPrefixOf_iff_prefix.mpr hpath⟩
  simp [hcounts] at hkeep

/-- To let unknown members through is to accept more. What is accepted without is accepted, unless
the check of it comes to a rule that asks for one of some values, of a value inside which alternatives
are swayed. A rule without alternatives finds the same in the same order, but for the unknown members
themselves, and but that a value with an unknown member in it is none of those asked for; and what it
accepts without unknown members it converts as before. -/
theorem validate_leniently (rule : Rule) (value : Json) :
    (¬ Reaches Contests rule none value → ∀ w, rule.validate strict value = .ok w →
      ∃ w', rule.validate lenient value = .ok w') ∧
    (rule.Unambiguous →
      (rule.failures lenient value).filter (!countsUnknown (rule.failures strict value) ·) =
        (ruleFailures (rule.failures strict value)).filter
          (!countsUnknown (rule.failures strict value) ·) ∧
      ∀ w, rule.validate strict value = .ok w → rule.validate lenient value = .ok w) := by
  refine ⟨fun hcontests w h => ?_, fun hrule => ⟨?_, fun w h => ?_⟩⟩
  · obtain ⟨w', hw'⟩ := (validate_eq_ok_iff.mp h).exists_leniently fun v hv =>
      Option.some.inj hv ▸ hcontests
    obtain ⟨w', rfl⟩ := hw'.exists_some
    exact ⟨w', validate_eq_ok_iff.mpr hw'⟩
  · rw [failures_eq, failures_eq]
    exact hrule.filter_check_lenient (spares_countsUnknown _)
  · have htakes := validate_eq_ok_iff.mp h
    refine validate_eq_ok_iff.mpr ?_
    rw [Takes] at htakes ⊢
    rw [hrule.check_lenient (by simp [htakes]), htakes]

/-- A phone number, or one with an extension. -/
def phoneRule : Rule :=
  oneOf [ofKeys [("number", text)], ofKeys [("number", text), ("extension", number)]]

/-- A phone number alone. -/
def numberRule : Rule := ofKeys [("number", text)]

def phoneGiven : Json := .obj [("extension", .str "7"), ("number", .str "1234")]

def phoneConverted : Json := .obj [("extension", .ofInt 7), ("number", .str "1234")]

theorem validate_leniently_phone :
    (phoneRule.validate strict phoneGiven = .ok phoneConverted ∧
      ∃ w', phoneRule.validate lenient phoneGiven = .ok w') ∧
    (numberRule.failures strict phoneGiven = [⟨["extension"], "extension", .unknownKey⟩] ∧
      (numberRule.failures lenient phoneGiven).filter
        (!countsUnknown (numberRule.failures strict phoneGiven) ·) = []) ∧
    numberRule.validate lenient (.obj [("number", .str " 1234")]) =
      .ok (.obj [("number", .str "1234")]) := by
  have hphone : phoneRule.validate strict phoneGiven = .ok phoneConverted := by decide +kernel
  have hnumber : numberRule.failures strict phoneGiven =
      [⟨["extension"], "extension", .unknownKey⟩] := by decide +kernel
  have hkeys {keys : Keys} (hleaf : ∀ entry ∈ keys, ∃ kind, entry.2 = .leaf kind {})
      {value : Json} : ¬ Reaches Contests (ofKeys keys) none value := by
    intro h
    cases h with
    | here h => exact h.1 rfl
    | member _ hentry _ h =>
        obtain ⟨kind, hkind⟩ := hleaf _ hentry
        rw [hkind] at h
        cases h with
        | here h => exact h.1 rfl
  have hcontests : ¬ Reaches Contests phoneRule none phoneGiven := by
    intro h
    cases h with
    | here h => exact h.1 rfl
    | @alternative _ before after rule _ _ _ _ _ hrules _ h =>
        have hmem : rule ∈ [ofKeys [("number", text)],
            ofKeys [("number", text), ("extension", number)]] := by
          rw [hrules]
          simp
        rcases List.mem_pair.mp hmem with rfl | rfl
        · exact hkeys (by simp [text]) h
        · exact hkeys (by simp [text, number]) h
  have hrule : numberRule.Unambiguous := .object fun entry hentry => by
    obtain rfl := List.mem_singleton.mp hentry
    exact .leaf
  refine ⟨⟨hphone, (validate_leniently phoneRule phoneGiven).1 hcontests _ hphone⟩,
    ⟨hnumber, ?_⟩, ((validate_leniently numberRule _).2 hrule).2 _ (by decide +kernel)⟩
  rw [((validate_leniently numberRule phoneGiven).2 hrule).1, hnumber]
  rfl

/-- Of the phone numbers only one is asked for. Once unknown members are let through the first
alternative takes it and leaves the extension a text; and a number alone then has an extension that is
not asked for. -/
theorem exists_not_leniently :
    ((phoneRule.among [phoneConverted]).validate strict phoneGiven = .ok phoneConverted ∧
      (phoneRule.among [phoneConverted]).validate lenient phoneGiven =
        .error [⟨[], "value", .notAmong [phoneConverted]⟩]) ∧
    (numberRule.among [.obj [("number", .str "1234")]]).Unambiguous ∧
      ruleFailures ((numberRule.among [.obj [("number", .str "1234")]]).failures strict
        phoneGiven) = [] ∧
      (numberRule.among [.obj [("number", .str "1234")]]).failures lenient phoneGiven =
        [⟨[], "value", .notAmong [.obj [("number", .str "1234")]]⟩] := by
  refine ⟨⟨by decide +kernel, by decide +kernel⟩, .object fun entry hentry => ?_,
    by decide +kernel, by decide +kernel⟩
  obtain rfl := List.mem_singleton.mp hentry
  exact .leaf

end Rule

end Questionnaire
