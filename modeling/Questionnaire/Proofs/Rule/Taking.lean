import Questionnaire.Proofs.Rule.Entries
import Questionnaire.Proofs.Rule.Leaves
import Questionnaire.Proofs.Rule.Members

/-!
# What a rule takes

A rule takes a value, or its absence, when the check passes, and then gives what the value is
converted to (`Takes`). How messages name the value makes no difference (`check_name`). Each kind
of rule has one law: what the attributes leave open (`Attributes.Frames`) is settled by the kind of a
leaf, item by item, member by member, by the first alternative that passes, or by the branch that a
choice picks.
-/

namespace Questionnaire

/-! ## Attributes -/

/-- Whether a value is one of those asked for, if any are. -/
def Attributes.Admits (a : Attributes) (value : Json) : Prop :=
  ∀ choices, a.valid = some choices → choices.any (·.looseEq value) = true

/-- What attributes let through, if `converts` says what becomes of a value that is not accepted as
it is. -/
inductive Attributes.Frames (a : Attributes) (converts : Json → Json → Prop) :
    Option Json → Option Json → Prop
  | absent (h : a.required = false) : Frames a converts none none
  | allowed {value : Json} (h : a.allows value = true) :
      Frames a converts (some value) (some value)
  | converted {value converted : Json} (hvalue : a.allows value = false)
      (h : converts value converted) (hadmits : a.allows converted = true ∨ a.Admits converted) :
      Frames a converts (some value) (some converted)

theorem Checked.eq_of_passes {checked : Checked} (h : checked.failures = []) :
    checked = ⟨checked.value, []⟩ := by
  rw [← h]

namespace Attributes

variable {a : Attributes} {label : String} {converts converts' : Json → Json → Prop}
  {value converted : Option Json}

theorem apply_some {value : Json} (hallows : a.allows value = false) (hne : value ≠ .null)
    (onNull : Option Fault) (convert : Json → Checked) :
    a.apply label onNull (some value) convert = a.finish label value (convert value) := by
  have hnot : ¬ a.allows value = true := by simpa using hallows
  cases value <;> simp_all [apply]

theorem finish_pass {value converted : Json} (h : a.Admits converted) :
    a.finish label value (.pass converted) = .pass converted := by
  unfold finish
  dsimp only [Checked.pass]
  split
  · rfl
  · split
    · rfl
    · next choices hvalid => rw [if_pos (h choices hvalid)]

/-- What is asked of a converted value changes nothing of a check that passes. -/
theorem finish_of_passes {value : Json} {checked : Checked}
    (h : (a.finish label value checked).failures = []) :
    a.finish label value checked = checked ∧
      ∀ converted, checked.value = some converted → a.allows converted = true ∨ a.Admits converted := by
  unfold finish at h ⊢
  split
  · next hnone => exact ⟨rfl, fun converted hsome => by simp [hnone] at hsome⟩
  · next converted hconverted =>
    simp only [hconverted, Option.some.injEq, forall_eq'] at h ⊢
    split
    · next hallowed => exact ⟨rfl, Or.inl (Bool.and_eq_true_iff.mp hallowed).2⟩
    · next hallowed =>
      rw [if_neg hallowed] at h
      split
      · next hvalid => exact ⟨rfl, Or.inr fun choices hchoices => by simp [hvalid] at hchoices⟩
      · next choices hvalid =>
        simp only [hvalid] at h
        split
        · next hamong =>
          refine ⟨rfl, Or.inr fun choices' hchoices => ?_⟩
          rw [hvalid] at hchoices
          rwa [← Option.some.inj hchoices]
        · next hamong =>
          rw [if_neg hamong] at h
          simp at h

theorem Frames.imp (h : a.Frames converts value converted)
    (himp : ∀ v w, value = some v → a.allows v = false → converts v w → converts' v w) :
    a.Frames converts' value converted := by
  cases h with
  | absent h => exact .absent h
  | allowed h => exact .allowed h
  | converted hvalue h hadmits => exact .converted hvalue (himp _ _ rfl hvalue h) hadmits

theorem Frames.exists_some {v : Json} (h : a.Frames converts (some v) converted) :
    ∃ w, converted = some w := by
  cases h with
  | allowed _ => exact ⟨v, rfl⟩
  | converted _ _ _ => exact ⟨_, rfl⟩

theorem frames_congr (h : ∀ v w, converts v w ↔ converts' v w) :
    a.Frames converts value converted ↔ a.Frames converts' value converted :=
  ⟨fun hframes => hframes.imp fun v w _ _ => (h v w).mp,
    fun hframes => hframes.imp fun v w _ _ => (h v w).mpr⟩

/-- What has been let through is let through again as it is, if what is converted would be converted
to itself. -/
theorem Frames.again (h : a.Frames converts value converted)
    (hagain : ∀ v w, value = some v → converted = some w → a.allows w = false → converts v w →
      converts' w w) : a.Frames converts' converted converted := by
  cases h with
  | absent h => exact .absent h
  | allowed h => exact .allowed h
  | @converted v w _ h hadmits =>
      cases hallows : a.allows w with
      | true => exact .allowed hallows
      | false => exact .converted hallows (hagain v w rfl rfl hallows h) hadmits

theorem frames_some_iff {v : Json} (hallows : a.allows v = false) :
    a.Frames converts (some v) converted ↔
      ∃ w, converted = some w ∧ converts v w ∧ (a.allows w = true ∨ a.Admits w) := by
  constructor
  · intro h
    cases h with
    | allowed hvalue => exact absurd hvalue (by simp [hallows])
    | converted _ h hadmits => exact ⟨_, rfl, h, hadmits⟩
  · rintro ⟨w, rfl, h, hadmits⟩
    exact .converted hallows h hadmits

theorem allows_congr {v w : Json} (h : w.same v = true) : a.allows w = a.allows v := by
  simp only [Json.same, decide_eq_true_eq] at h
  simp only [allows, Json.same, h]

/-- What is asked of a converted value is that it is welcome, or among those asked for. -/
theorem finish_eq_iff {v : Json} (hallows : a.allows v = false) {checked : Checked}
    (hsome : checked.failures = [] → checked.value ≠ none) :
    a.finish label v checked = ⟨converted, []⟩ ↔
      ∃ w, converted = some w ∧ checked = .pass w ∧ (a.allows w = true ∨ a.Admits w) := by
  constructor
  · intro h
    obtain ⟨hfinish, hadmits⟩ := finish_of_passes (congrArg Checked.failures h)
    rw [hfinish] at h
    subst h
    obtain ⟨w, rfl⟩ := Option.ne_none_iff_exists'.mp (hsome rfl)
    exact ⟨w, rfl, rfl, hadmits w rfl⟩
  · rintro ⟨w, rfl, rfl, hw | hadmits⟩
    -- `finish` asks no more of a welcome value, unless the value as given was the same.
    · have hne : w.same v = false := by
        rw [← Bool.not_eq_true]
        intro hsame
        rw [allows_congr hsame, hallows] at hw
        exact nomatch hw
      simp [finish, Checked.pass, hne, hw]
    · exact finish_pass hadmits

/-- The frame of every check, seen from what passes. -/
theorem apply_eq_iff {onNull : Option Fault} {convert : Json → Checked}
    (hsome : ∀ v, (convert v).failures = [] → (convert v).value ≠ none) :
    a.apply label onNull value convert = ⟨converted, []⟩ ↔
      a.Frames (fun v w => (v = .null → onNull = none) ∧ convert v = .pass w) value converted := by
  cases value with
  | none =>
      constructor
      · intro h
        cases hrequired : a.required with
        | true => simp [apply, hrequired, Checked.fail] at h
        | false =>
            obtain rfl : none = converted := by simpa [apply, hrequired] using h
            exact .absent hrequired
      · rintro ⟨hrequired⟩
        simp [apply, hrequired]
  | some v =>
      cases hallows : a.allows v with
      | true =>
          constructor
          · intro h
            obtain rfl : some v = converted := by simpa [apply, hallows, Checked.pass] using h
            exact .allowed hallows
          · intro h
            cases h with
            | allowed _ => simp [apply, hallows, Checked.pass]
            | converted hvalue _ _ => cases hallows.symm.trans hvalue
      | false =>
          rw [frames_some_iff hallows]
          by_cases hnull : v = .null → onNull = none
          -- Null without a fault of its own is converted like any other value.
          · have happly : a.apply label onNull (some v) convert =
                a.finish label v (convert v) := by
              by_cases hne : v = .null
              · subst hne
                simp [apply, hallows, hnull rfl]
              · exact apply_some hallows hne onNull convert
            rw [happly, finish_eq_iff hallows (hsome v)]
            simp only [eq_true hnull, true_and]
          · obtain ⟨rfl, hfault⟩ := Classical.not_imp.mp hnull
            obtain ⟨fault, rfl⟩ := Option.ne_none_iff_exists'.mp hfault
            simp [apply, hallows]

theorem value_of_passes {onNull : Option Fault} {convert : Json → Checked}
    (hsome : ∀ v, (convert v).failures = [] → (convert v).value ≠ none) {v : Json}
    (h : (a.apply label onNull (some v) convert).failures = []) :
    (a.apply label onNull (some v) convert).value ≠ none := by
  obtain ⟨w, hw⟩ := ((apply_eq_iff hsome).mp (Checked.eq_of_passes h)).exists_some
  rw [hw]
  exact nofun

end Attributes

/-! ## Rules -/

namespace Rule

/-- Induction over a rule, through the rules inside it. -/
theorem induction {motive : Rule → Prop} (leaf : ∀ kind a, motive (.leaf kind a))
    (object : ∀ keys unknown a, (∀ entry ∈ keys, motive entry.2) → motive (.object keys unknown a))
    (array : ∀ item a, motive item → motive (.array item a))
    (alternatives : ∀ rules a, (∀ rule ∈ rules, motive rule) → motive (.alternatives rules a))
    (choose : ∀ sibling is revealed hidden a, motive revealed → motive hidden →
      motive (.choose sibling is revealed hidden a)) : ∀ rule, motive rule
  | .leaf kind a => leaf kind a
  | .object keys unknown a => object keys unknown a fun entry hentry =>
      have : sizeOf entry.2 < sizeOf keys := by
        obtain ⟨key, rule⟩ := entry
        have := List.sizeOf_lt_of_mem hentry
        simp only [Prod.mk.sizeOf_spec] at this
        simp only
        omega
      induction leaf object array alternatives choose entry.2
  | .array item a => array item a (induction leaf object array alternatives choose item)
  | .alternatives rules a => alternatives rules a fun rule hrule =>
      have := List.sizeOf_lt_of_mem hrule
      induction leaf object array alternatives choose rule
  | .choose sibling is revealed hidden a =>
      choose sibling is revealed hidden a (induction leaf object array alternatives choose revealed)
        (induction leaf object array alternatives choose hidden)
termination_by rule => sizeOf rule

section

variable {options : ValidationOptions} {name label : String} {siblings : Option Fields}

/-- Whether the sibling answer picks a value. -/
def picks (siblings : Option Fields) (sibling : String) (is : Json) : Bool :=
  (siblings.bind (·.get? sibling)).any (·.selects is)

theorem check_choose (sibling : String) (is : Json) (revealed hidden : Rule) (a : Attributes)
    (value : Option Json) :
    (Rule.choose sibling is revealed hidden a).check options name siblings value =
      (if picks siblings sibling is then revealed else hidden).check options (a.label.getD name)
        siblings value := by
  rw [check, picks]
  split <;> rfl

/-- Of some rules, one is the first that passes. -/
theorem checkAlternatives_eq_iff {rules : List Rule} {value : Json}
    {reported : Option (List Failure)} {converted : Option Json}
    (hreported : reported ≠ some []) :
    checkAlternatives options rules label siblings value reported = ⟨converted, []⟩ ↔
      ∃ before rule after, rules = before ++ rule :: after ∧
        (∀ other ∈ before, (other.check options label siblings (some value)).failures ≠ []) ∧
        rule.check options label siblings (some value) = ⟨converted, []⟩ := by
  induction rules generalizing reported with
  | nil =>
      constructor
      · intro h
        cases reported with
        | none => cases h
        | some failures => exact absurd (congrArg some (Checked.mk.inj h).2) hreported
      · rintro ⟨before, rule, after, hrules, -⟩
        exact absurd hrules (by simp)
  | cons first rest ih =>
      rw [checkAlternatives]
      dsimp only
      by_cases hfirst : (first.check options label siblings (some value)).failures = []
      -- The first rule passes, so nothing may stand before the one that passes first.
      · rw [if_pos (by simp [hfirst])]
        constructor
        · exact fun h => ⟨[], first, rest, rfl, by simp, h⟩
        · rintro ⟨before, rule, after, hrules, hbefore, h⟩
          cases before with
          | nil => exact (List.cons.inj hrules).1 ▸ h
          | cons other before =>
              exact absurd ((List.cons.inj hrules).1 ▸ hfirst) (hbefore other (.head _))
      -- The first rule is refused, and belongs to those before the one that passes.
      · rw [if_neg (by simpa using hfirst), ih (by split <;> simp_all)]
        constructor
        · rintro ⟨before, rule, after, rfl, hbefore, h⟩
          refine ⟨first :: before, rule, after, rfl, ?_, h⟩
          exact List.forall_mem_cons.mpr ⟨hfirst, hbefore⟩
        · rintro ⟨before, rule, after, hrules, hbefore, h⟩
          cases before with
          | nil => exact absurd (by rw [(List.cons.inj hrules).1, h]) hfirst
          | cons other before =>
              obtain ⟨-, rfl⟩ := List.cons.inj hrules
              exact ⟨before, rule, after, rfl, fun r hr => hbefore r (.tail _ hr), h⟩

/-- A value that passes is converted to some value. -/
theorem value_of_passes {rule : Rule} {v : Json}
    (h : (rule.check options name siblings (some v)).failures = []) :
    (rule.check options name siblings (some v)).value ≠ none := by
  induction rule using Rule.induction generalizing name siblings v with
  | leaf kind a =>
      rw [check] at h ⊢
      exact Attributes.value_of_passes (fun _ => Leaf.value_of_passes) h
  | object keys unknown a _ =>
      rw [check] at h ⊢
      refine Attributes.value_of_passes (fun w hw => ?_) h
      split at hw <;> simp_all [Checked.fail]
  | array item a _ =>
      rw [check] at h ⊢
      refine Attributes.value_of_passes (fun w hw => ?_) h
      split at hw <;> simp_all [Checked.fail]
  | alternatives rules a ih =>
      rw [check] at h ⊢
      refine Attributes.value_of_passes (fun w hw => ?_) h
      obtain ⟨before, rule, after, hrules, -, hrule⟩ :=
        (checkAlternatives_eq_iff (by simp)).mp (Checked.eq_of_passes hw)
      have hvalue := ih rule (by simp [hrules]) (congrArg Checked.failures hrule)
      rwa [hrule] at hvalue
  | choose sibling is revealed hidden a ihr ihh =>
      rw [check_choose] at h ⊢
      split
      · next hpicks => exact ihr (by rwa [if_pos hpicks] at h)
      · next hpicks => exact ihh (by rwa [if_neg hpicks] at h)

/-- Items one by one. -/
inductive EachItem (takes : Json → Json → Prop) : Json → Json → Prop
  | items {items items' : List Json} (h : List.Forall₂ takes items items') :
      EachItem takes (.arr items) (.arr items')

theorem forall_mem_of_forall₂ {p : Json → Prop} {items items' : List Json}
    (h : List.Forall₂ (fun _ y => p y) items items') : ∀ y ∈ items', p y := by
  induction h with
  | nil => exact nofun
  | cons hy _ ih => exact List.forall_mem_cons.mpr ⟨hy, ih⟩

theorem eachItem_checks_iff {item : Json → Checked}
    (hsome : ∀ x, (item x).failures = [] → (item x).value ≠ none) {items items' : List Json}
    {n : Nat} :
    (((items.zipIdx n).map fun (x, index) => (item x).under (toString index)).filterMap
          (·.value) = items' ∧
      ((items.zipIdx n).map fun (x, index) => (item x).under (toString index)).flatMap
          (·.failures) = []) ↔
      List.Forall₂ (fun x y => item x = .pass y) items items' := by
  induction items generalizing items' n with
  | nil => simp [eq_comm]
  | cons x rest ih =>
      simp only [List.zipIdx_cons, List.map_cons, List.flatMap_cons, List.append_eq_nil_iff]
      constructor
      · rintro ⟨hvalues, hfailures, hrest⟩
        have hpasses : (item x).failures = [] := List.map_eq_nil_iff.mp hfailures
        obtain ⟨y, hy⟩ := Option.ne_none_iff_exists'.mp (hsome x hpasses)
        have hunder : ((item x).under (toString n)).value = some y := hy
        rw [List.filterMap_cons_some hunder] at hvalues
        subst hvalues
        refine .cons ?_ (ih.mp ⟨rfl, hrest⟩)
        rw [Checked.eq_of_passes hpasses, hy]
        rfl
      · rintro (_ | ⟨hx, hrest⟩)
        obtain ⟨hvalues, hfailures⟩ := ih (n := n + 1) |>.mpr hrest
        have hunder : ((item x).under (toString n)).value = some _ :=
          congrArg Checked.value hx
        rw [List.filterMap_cons_some hunder]
        exact ⟨congrArg (List.cons _) hvalues, by rw [hx]; rfl, hfailures⟩

theorem check_array_eq_iff {item : Rule} {a : Attributes} {value converted : Option Json} :
    (Rule.array item a).check options name siblings value = ⟨converted, []⟩ ↔
      a.Frames (EachItem fun x y =>
        item.check options (a.label.getD name) none (some x) = .pass y) value converted := by
  rw [check, Attributes.apply_eq_iff]
  · refine Attributes.frames_congr fun v w => ?_
    constructor
    · rintro ⟨-, h⟩
      split at h
      · obtain ⟨hvalue, hfailures⟩ := Checked.mk.inj h
        obtain rfl := Option.some.inj hvalue
        exact .items ((eachItem_checks_iff fun _ => value_of_passes).mp ⟨rfl, hfailures⟩)
      · cases h
    · rintro ⟨h⟩
      obtain ⟨hvalues, hfailures⟩ :=
        (eachItem_checks_iff (n := 0) fun _ => value_of_passes).mpr h
      refine ⟨by rintro ⟨⟩, ?_⟩
      simp only [hvalues, hfailures]
      rfl
  · intro v hv
    split at hv <;> simp_all [Checked.fail]

theorem check_alternatives_eq_iff {rules : List Rule} {a : Attributes}
    {value converted : Option Json} :
    (Rule.alternatives rules a).check options name siblings value = ⟨converted, []⟩ ↔
      a.Frames (fun v w => v ≠ .null ∧ ∃ before rule after, rules = before ++ rule :: after ∧
        (∀ other ∈ before,
          (other.check options (a.label.getD name) siblings (some v)).failures ≠ []) ∧
        rule.check options (a.label.getD name) siblings (some v) = .pass w) value converted := by
  rw [check, Attributes.apply_eq_iff]
  · refine Attributes.frames_congr fun v w => and_congr (by simp) ?_
    exact checkAlternatives_eq_iff (by simp)
  · intro v hv
    obtain ⟨before, rule, after, hrules, -, hrule⟩ :=
      (checkAlternatives_eq_iff (by simp)).mp (Checked.eq_of_passes hv)
    have hvalue := value_of_passes (congrArg Checked.failures hrule)
    rwa [hrule] at hvalue

/-- What becomes of the members of an object. -/
inductive EachMember (options : ValidationOptions) (keys : Keys) (allowed : Bool) : Json → Json → Prop
  | members {fields : Fields} (hknown : (checkKeys options keys fields).2 = [])
      (hunknown : (checkUnknown allowed keys fields).2 = []) :
      EachMember options keys allowed (.obj fields)
        (.obj ((checkKeys options keys fields).1.extend (checkUnknown allowed keys fields).1))

theorem check_object_eq_iff {keys : Keys} {unknown : Bool} {a : Attributes}
    {value converted : Option Json} :
    (Rule.object keys unknown a).check options name siblings value = ⟨converted, []⟩ ↔
      a.Frames (EachMember options keys (unknown || options.allowUnknown)) value converted := by
  rw [check, Attributes.apply_eq_iff]
  · refine Attributes.frames_congr fun v w => ?_
    constructor
    · rintro ⟨-, h⟩
      split at h
      · obtain ⟨hvalue, hfailures⟩ := Checked.mk.inj h
        obtain rfl := Option.some.inj hvalue
        obtain ⟨hknown, hunknown⟩ := List.append_eq_nil_iff.mp hfailures
        exact .members hknown hunknown
      · cases h
    · rintro ⟨hknown, hunknown⟩
      refine ⟨by rintro ⟨⟩, ?_⟩
      simp only [hknown, hunknown]
      rfl
  · intro v hv
    split at hv <;> simp_all [Checked.fail]

theorem check_leaf_eq_iff {kind : Leaf} {a : Attributes} {value converted : Option Json} :
    (Rule.leaf kind a).check options name siblings value = ⟨converted, []⟩ ↔
      a.Frames (fun v w => (v = .null → kind = .any) ∧
        kind.check (a.allows (.str "")) rootName v = .pass w) value converted := by
  rw [check, Attributes.apply_eq_iff fun _ => Leaf.value_of_passes]
  refine Attributes.frames_congr fun v w => and_congr ?_ ?_
  · exact imp_congr_right fun _ => by split <;> simp_all
  · exact ⟨fun h => Leaf.check_label h _, fun h => Leaf.check_label h _⟩

/-- What a leaf converts it takes as it is from then on, whatever stands beside it. -/
theorem check_leaf_again {kind : Leaf} {a : Attributes} {value converted : Option Json}
    (h : (Rule.leaf kind a).check options name siblings value = ⟨converted, []⟩)
    (options' : ValidationOptions) (name' : String) (siblings' : Option Fields) :
    (Rule.leaf kind a).check options' name' siblings' converted = ⟨converted, []⟩ := by
  refine check_leaf_eq_iff.mpr ((check_leaf_eq_iff.mp h).again ?_)
  rintro v w rfl rfl hallows ⟨hnull, hcheck⟩
  refine Leaf.check_again hnull hcheck ?_
  -- Where the empty text is welcome, it is accepted as it is and not checked again.
  rintro ⟨hempty, rfl⟩
  exact nomatch hallows.symm.trans hempty

/-- How messages name a value makes no difference to whether it passes. -/
theorem check_name {rule : Rule} {value converted : Option Json}
    (h : rule.check options name siblings value = ⟨converted, []⟩) (name' : String) :
    rule.check options name' siblings value = ⟨converted, []⟩ := by
  induction rule using Rule.induction generalizing name name' siblings value converted with
  | leaf kind a => exact check_leaf_eq_iff.mpr (check_leaf_eq_iff.mp h)
  | object keys unknown a _ =>
      rw [check_object_eq_iff] at h ⊢
      exact h
  | array item a ih =>
      refine check_array_eq_iff.mpr ((check_array_eq_iff.mp h).imp ?_)
      rintro _ _ - - ⟨h⟩
      exact .items (h.imp fun x y hxy => ih hxy _)
  | alternatives rules a ih =>
      rw [check_alternatives_eq_iff] at h ⊢
      refine h.imp ?_
      rintro v w - - ⟨hnull, before, rule, after, hrules, hbefore, h⟩
      refine ⟨hnull, before, rule, after, hrules, ?_, ih rule (by simp [hrules]) h _⟩
      -- A refusal carries over as well: passing under one name is passing under the other.
      intro other hother hpasses
      have hagain := ih other (by simp [hrules, hother]) (Checked.eq_of_passes hpasses)
        (a.label.getD name)
      exact hbefore other hother (congrArg Checked.failures hagain)
  | choose sibling is revealed hidden a ihr ihh =>
      rw [check_choose] at h ⊢
      split
      · next hpicks => exact ihr (by rwa [if_pos hpicks] at h) _
      · next hpicks => exact ihh (by rwa [if_neg hpicks] at h) _

/-! ### Taking -/

/-- A rule takes a value, or its absence, beside some siblings, and gives what it is converted to. -/
def Takes (options : ValidationOptions) (rule : Rule) (siblings : Option Fields)
    (value converted : Option Json) : Prop :=
  rule.check options rootName siblings value = ⟨converted, []⟩

/-- A rule does not take a value. -/
def Refuses (options : ValidationOptions) (rule : Rule) (siblings : Option Fields)
    (value : Json) : Prop :=
  ∀ converted, ¬ rule.Takes options siblings (some value) (some converted)

/-- Of some rules in order, those before one refuse a value, which that one takes. -/
structure TakesFirst (options : ValidationOptions) (siblings : Option Fields) (before : List Rule)
    (rule : Rule) (value converted : Json) : Prop where
  refused : ∀ other ∈ before, other.Refuses options siblings value
  takes : rule.Takes options siblings (some value) (some converted)

theorem takes_iff (name : String) {rule : Rule} {value converted : Option Json} :
    rule.Takes options siblings value converted ↔
      rule.check options name siblings value = ⟨converted, []⟩ :=
  ⟨fun h => check_name h name, fun h => check_name h rootName⟩

theorem Takes.exists_some {rule : Rule} {value : Json} {converted : Option Json}
    (h : rule.Takes options siblings (some value) converted) : ∃ w, converted = some w := by
  have hvalue := value_of_passes (congrArg Checked.failures h)
  rw [h] at hvalue
  exact Option.ne_none_iff_exists'.mp hvalue

theorem refuses_iff (name : String) {rule : Rule} {value : Json} :
    rule.Refuses options siblings value ↔
      (rule.check options name siblings (some value)).failures ≠ [] := by
  constructor
  · intro h hpasses
    have htakes := (takes_iff name).mpr (Checked.eq_of_passes hpasses)
    obtain ⟨w, hw⟩ := htakes.exists_some
    exact h w (hw ▸ htakes)
  · intro h w htakes
    exact h (congrArg Checked.failures ((takes_iff name).mp htakes))

theorem validate_eq_ok_iff {rule : Rule} {value converted : Json} :
    rule.validate options value = .ok converted ↔
      rule.Takes options none (some value) (some converted) := by
  rw [validate]
  constructor
  · intro h
    split at h
    · next hpasses =>
      have htakes : rule.Takes options none (some value) _ :=
        Checked.eq_of_passes (List.isEmpty_iff.mp hpasses)
      obtain ⟨w, hw⟩ := htakes.exists_some
      rw [hw] at h htakes
      cases h
      exact htakes
    · cases h
  · intro h
    rw [show rule.check options rootName none (some value) = ⟨some converted, []⟩ from h]
    rfl

variable {a : Attributes} {value converted : Option Json}

theorem takes_leaf_iff {kind : Leaf} :
    (Rule.leaf kind a).Takes options siblings value converted ↔
      a.Frames (fun v w => (v = .null → kind = .any) ∧
        kind.check (a.allows (.str "")) rootName v = .pass w) value converted :=
  check_leaf_eq_iff

theorem takes_array_iff {item : Rule} :
    (Rule.array item a).Takes options siblings value converted ↔
      a.Frames (EachItem fun x y => item.Takes options none (some x) (some y)) value converted := by
  have hitem (x y : Json) : item.Takes options none (some x) (some y) ↔
      item.check options (a.label.getD rootName) none (some x) = .pass y := takes_iff _
  simp only [hitem]
  exact check_array_eq_iff

theorem takes_alternatives_iff {rules : List Rule} :
    (Rule.alternatives rules a).Takes options siblings value converted ↔
      a.Frames (fun v w => v ≠ .null ∧ ∃ before rule after, rules = before ++ rule :: after ∧
        TakesFirst options siblings before rule v w) value converted := by
  rw [Takes, check_alternatives_eq_iff]
  refine Attributes.frames_congr fun v w => and_congr_right fun _ => ?_
  refine exists_congr fun before => exists_congr fun rule => exists_congr fun after =>
    and_congr_right fun _ => ?_
  constructor
  · rintro ⟨hbefore, h⟩
    exact ⟨fun other hother => (refuses_iff _).mpr (hbefore other hother), (takes_iff _).mpr h⟩
  · rintro ⟨hbefore, h⟩
    exact ⟨fun other hother => (refuses_iff _).mp (hbefore other hother), (takes_iff _).mp h⟩

theorem takes_choose_iff {sibling : String} {is : Json} {revealed hidden : Rule} :
    (Rule.choose sibling is revealed hidden a).Takes options siblings value converted ↔
      (if picks siblings sibling is then revealed else hidden).Takes options siblings value
        converted := by
  rw [Takes, check_choose]
  exact (takes_iff _).symm

/-- What becomes of an object member by member. -/
structure TakesMembers (options : ValidationOptions) (keys : Keys) (allowed : Bool)
    (fields fields' : Fields) : Prop where
  ordered : fields'.Ordered
  known : ∀ entry ∈ keys,
    entry.2.Takes options (some fields) (fields.get? entry.1) (fields'.get? entry.1)
  unknown : ∀ key, keys.has key = false → fields'.get? key = (Fields.ofList fields).get? key
  refused : allowed = true ∨ ∀ member ∈ fields, keys.has member.1 = true

/-- A member with a rule is the one that its rule gives, another the last one given. -/
theorem get?_converted {keys : Keys} {allowed : Bool} {fields : Fields}
    (h : (checkUnknown allowed keys fields).2 = []) (key : String) :
    ((checkKeys options keys fields).1.extend (checkUnknown allowed keys fields).1).get? key =
      if keys.has key then (checkKeys options keys fields).1.get? key
      else (Fields.ofList fields).get? key := by
  -- The unknown members, if they pass, are the given ones without those that have rules.
  rw [Fields.get?_extend_ofList, checkUnknown_eq_filter h,
    Fields.get?_ofList_filter fun key => !keys.has key]
  by_cases hkey : keys.has key = true
  · simp [hkey]
  · have hnone : (checkKeys options keys fields).1.get? key = none := by
      refine Fields.get?_eq_none fun member hmember heq => hkey ?_
      rw [← heq]
      exact has_of_mem_checkKeys member hmember
    simp [hkey, hnone]

theorem eachMember_iff {keys : Keys} (hnodup : keys.names.Nodup) {allowed : Bool}
    {fields fields' : Fields} :
    EachMember options keys allowed (.obj fields) (.obj fields') ↔
      TakesMembers options keys allowed fields fields' := by
  have hmember {entry : String × Rule} (hentry : entry ∈ keys) :
      (checkKeys options keys fields).1.get? entry.1 =
        (entry.2.check options entry.1 (some fields) (fields.get? entry.1)).value := by
    rw [get?_checkKeys options hnodup, Keys.get?_of_mem hnodup hentry]
    rfl
  have hhas {entry : String × Rule} (hentry : entry ∈ keys) : keys.has entry.1 = true :=
    Keys.has_iff_mem_names.mpr (List.mem_map_of_mem hentry)
  constructor
  · rintro ⟨hknown, hunknown⟩
    refine ⟨(ordered_checkKeys options keys fields).extend _, fun entry hentry => ?_,
      fun key hkey => ?_, checkUnknown_failures_eq_nil_iff.mp hunknown⟩
    · rw [get?_converted hunknown, if_pos (hhas hentry), hmember hentry]
      exact (takes_iff _).mpr
        (Checked.eq_of_passes (checkKeys_failures_eq_nil_iff.mp hknown entry hentry))
    · rw [get?_converted hunknown, if_neg (by simp [hkey])]
  · intro h
    have hcheck (entry : String × Rule) (hentry : entry ∈ keys) :
        entry.2.check options entry.1 (some fields) (fields.get? entry.1) =
          ⟨fields'.get? entry.1, []⟩ := (takes_iff _).mp (h.known entry hentry)
    have hknown : (checkKeys options keys fields).2 = [] :=
      checkKeys_failures_eq_nil_iff.mpr fun entry hentry => by rw [hcheck entry hentry]
    have hunknown : (checkUnknown allowed keys fields).2 = [] :=
      checkUnknown_failures_eq_nil_iff.mpr h.refused
    have heq : fields' =
        (checkKeys options keys fields).1.extend (checkUnknown allowed keys fields).1 := by
      -- Both sides are ordered, so they are equal once they have the same member under every key.
      refine h.ordered.ext ((ordered_checkKeys options keys fields).extend _) fun key => ?_
      rw [get?_converted hunknown]
      by_cases hkey : keys.has key = true
      · obtain ⟨entry, hentry, rfl⟩ := List.mem_map.mp (Keys.has_iff_mem_names.mp hkey)
        rw [if_pos hkey, hmember hentry, hcheck entry hentry]
      · rw [if_neg hkey, h.unknown key (by simpa using hkey)]
    rw [heq]
    exact .members hknown hunknown

theorem takes_object_iff {keys : Keys} (hnodup : keys.names.Nodup) {unknown : Bool} :
    (Rule.object keys unknown a).Takes options siblings value converted ↔
      a.Frames (fun v w => ∃ fields fields', v = .obj fields ∧ w = .obj fields' ∧
        TakesMembers options keys (unknown || options.allowUnknown) fields fields')
        value converted := by
  rw [Takes, check_object_eq_iff]
  refine Attributes.frames_congr fun v w => ?_
  constructor
  · intro h
    cases h with
    | members hknown hunknown =>
        exact ⟨_, _, rfl, rfl, (eachMember_iff hnodup).mp (.members hknown hunknown)⟩
  · rintro ⟨fields, fields', rfl, rfl, h⟩
    exact (eachMember_iff hnodup).mpr h

/-! ### Null -/

/-- No value but null is converted to null. -/
theorem Takes.ne_null {rule : Rule} {value converted : Json}
    (h : rule.Takes options siblings (some value) (some converted)) (hne : value ≠ .null) :
    converted ≠ .null := by
  induction rule using Rule.induction generalizing siblings value converted with
  | leaf kind a =>
      rw [takes_leaf_iff] at h
      -- Only what is converted has changed; a value accepted as it is was no null.
      rcases h with - | - | ⟨-, ⟨-, hcheck⟩, -⟩
      · exact hne
      · by_cases hkind : kind = .any
        · subst hkind
          cases hcheck
          exact hne
        · obtain ⟨w, hw, hsettled⟩ := Leaf.settled_of_check hkind (congrArg Checked.failures hcheck)
          cases hcheck.symm.trans hw
          rcases hsettled with hsettled | ⟨-, rfl⟩
          · exact hsettled.ne_null
          · rintro ⟨⟩
  | object keys unknown a ih =>
      rw [Takes, check_object_eq_iff] at h
      rcases h with - | - | ⟨-, ⟨-, -⟩, -⟩
      · exact hne
      · rintro ⟨⟩
  | array item a ih =>
      rw [takes_array_iff] at h
      rcases h with - | - | ⟨-, ⟨-⟩, -⟩
      · exact hne
      · rintro ⟨⟩
  | alternatives rules a ih =>
      rw [takes_alternatives_iff] at h
      rcases h with - | - | ⟨-, ⟨-, before, rule, after, rfl, hfirst⟩, -⟩
      · exact hne
      · exact ih rule (by simp) hfirst.takes hne
  | choose sibling is revealed hidden a ihr ihh =>
      rw [takes_choose_iff] at h
      split at h
      · exact ihr h hne
      · exact ihh h hne

theorem ne_null_of_check {rule : Rule} {value : Json} (hne : value ≠ .null)
    (h : (rule.check options name siblings (some value)).failures = []) :
    ∃ converted, (rule.check options name siblings (some value)).value = some converted ∧
      converted ≠ .null := by
  have htakes := (takes_iff name).mpr (Checked.eq_of_passes h)
  obtain ⟨converted, hvalue⟩ := htakes.exists_some
  rw [hvalue] at htakes
  exact ⟨converted, hvalue, htakes.ne_null hne⟩

end

end Rule

end Questionnaire
