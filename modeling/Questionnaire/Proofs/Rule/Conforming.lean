import Questionnaire.Proofs.Number.Place
import Questionnaire.Proofs.Rule.Revalidation
import Questionnaire.Proofs.Text.Trimming

/-!
# Values that conform to a rule

What a rule asks of a value, said of the value alone: nothing is converted, no failure is collected
and no order of checks is followed. The constraints of a text or a number are inequalities
(`TextConstraints.SatisfiedBy`, `NumberConstraints.SatisfiedBy`), a leaf has its values
(`Leaf.Holds`), and a rule relates a value to the parts it is made of (`Conforms`). Only a choice
looks at what was given, for the given siblings pick its branch.

Whatever validation gives conforms to the rule (`conforms_of_validate`).
-/

namespace Questionnaire

/-! ## Constraints -/

/-- A text that keeps the constraints. -/
structure TextConstraints.SatisfiedBy (c : TextConstraints) (text : String) : Prop where
  ne_empty : text ≠ ""
  trimmed : c.trim = true → Text.IsTrimmed text
  min_le : ∀ min, c.min = some min → min ≤ text.length
  le_max : ∀ max, c.max = some max → text.length ≤ max
  accepts : ∀ pattern, c.pattern = some pattern → pattern.accepts text = true

/-- A number that keeps the constraints. Every number keeps a bound that is no number, for none is
below or above it. -/
structure NumberConstraints.SatisfiedBy (c : NumberConstraints) (x : Binary64) : Prop where
  min_le : ∀ min, c.min = some (.number min) → min.place ≤ (Extended64.finite x).place
  le_max : ∀ max, c.max = some (.number max) → (Extended64.finite x).place ≤ max.place
  whole : c.whole = true → ∃ i : Int, x.toUnits = i * unitsPerOne

/-- The values of a leaf's kind that keep its constraints. -/
inductive Leaf.Holds : Leaf → Json → Prop
  | any {value : Json} : Holds .any value
  | text {c : TextConstraints} {text : String} (h : c.SatisfiedBy text) : Holds (.text c) (.str text)
  | number {c : NumberConstraints} {n : Number} (h : c.SatisfiedBy n.toBinary64) :
      Holds (.number c) (.num n)
  | boolean {b : Bool} : Holds .boolean (.bool b)
  | date {date : Date} (h : date.inAnswerRange = true) : Holds .date (.str date.canonical)
  | dateTime {moment : DateTime} (h : moment.date.inAnswerRange = true) :
      Holds .dateTime (.str moment.canonical)

theorem TextConstraints.satisfiedBy_of_faults {c : TextConstraints} {text : String}
    (hne : text ≠ "") (htrim : c.trim = true → Text.IsTrimmed text)
    (h : Leaf.textFaults c text = []) : c.SatisfiedBy text := by
  simp only [Leaf.textFaults, List.append_eq_nil_iff] at h
  obtain ⟨⟨hshort, hlong⟩, hshape⟩ := h
  refine ⟨hne, htrim, fun min hmin => ?_, fun max hmax => ?_, fun pattern hpattern => ?_⟩
  · rw [hmin] at hshort
    by_contra hlt
    simp [Nat.lt_of_not_le hlt] at hshort
  · rw [hmax] at hlong
    by_contra hlt
    simp [Nat.lt_of_not_le hlt] at hlong
  · rw [hpattern] at hshape
    by_contra hrefused
    dsimp only at hshape
    rw [if_neg hrefused] at hshape
    split at hshape <;> exact nomatch hshape

theorem Binary64.exists_toUnits_of_isWhole {x : Binary64} (h : x.isWhole = true) :
    ∃ i : Int, x.toUnits = i * unitsPerOne := by
  obtain ⟨n, hn⟩ := Nat.dvd_of_mod_eq_zero (by simpa [isWhole] using h)
  rw [toUnits, hn]
  split
  · exact ⟨-n, by rw [Int.neg_mul, Int.mul_comm, Int.natCast_mul]⟩
  · exact ⟨n, by rw [Int.mul_comm, Int.natCast_mul]⟩

theorem Float64.le_of_not_lt {x y : Extended64} (h : lt (.number x) (.number y) = false) :
    y.place ≤ x.place := by
  rw [← Bool.not_eq_true, lt_iff] at h
  exact not_lt.mp fun hlt => h ⟨x, y, rfl, rfl, hlt⟩

theorem NumberConstraints.satisfiedBy_of_faults {c : NumberConstraints} {x : Binary64}
    (h : Leaf.numberFaults c x = []) : c.SatisfiedBy x := by
  obtain ⟨hwhole, hmin, hmax⟩ := Leaf.numberFaults_eq_nil h
  exact ⟨fun min hasked => Float64.le_of_not_lt (hmin _ hasked),
    fun max hasked => Float64.le_of_not_lt (hmax _ hasked),
    fun hasked => Binary64.exists_toUnits_of_isWhole (hwhole hasked)⟩

namespace Leaf

variable {allowsEmpty : Bool} {label : String} {v w : Json}

theorem holds_of_check_text {c : TextConstraints}
    (h : (Leaf.text c).check allowsEmpty label v = .pass w) :
    (Leaf.text c).Holds w ∨ (allowsEmpty = true ∧ w = .str "") := by
  cases v with
  | str raw =>
      simp only [check] at h
      generalize htext : (if c.trim = true then Text.trim raw else raw) = text at h
      by_cases hempty : text = ""
      · rw [if_pos hempty] at h
        cases allowsEmpty with
        | true => exact .inr ⟨rfl, (Option.some.inj (congrArg Checked.value h)).symm⟩
        | false => cases h
      · rw [if_neg hempty] at h
        obtain ⟨hvalue, hfaults⟩ := Checked.mk.inj h
        obtain rfl := Option.some.inj hvalue
        refine .inl (.text (TextConstraints.satisfiedBy_of_faults hempty (fun htrim => ?_)
          (List.map_eq_nil_iff.mp hfaults)))
        rw [← htext, if_pos htrim]
        exact Text.isTrimmed_trim raw
  | _ => cases h

theorem holds_of_check_number {c : NumberConstraints}
    (h : (Leaf.number c).check allowsEmpty label v = .pass w) : (Leaf.number c).Holds w := by
  rw [check] at h
  split at h
  · next x _ =>
    obtain ⟨hvalue, hfaults⟩ := Checked.mk.inj h
    obtain rfl := Option.some.inj hvalue
    -- The kept value may be an integer, which has the value of the number that was read.
    obtain ⟨y, hread, -, hsame⟩ := numberOf?_numberValue x
    have hkept : numberFaults c y = [] := by rw [hsame, List.map_eq_nil_iff.mp hfaults]
    obtain ⟨n, hn⟩ := numberValue_eq_num x
    rw [hn] at hread ⊢
    obtain rfl := Option.some.inj hread
    exact .number (NumberConstraints.satisfiedBy_of_faults hkept)
  · cases h

/-- What a leaf makes of a value is of its kind, unless it is the empty text where that is welcome. -/
theorem holds_of_check {kind : Leaf} (h : kind.check allowsEmpty label v = .pass w) :
    kind.Holds w ∨ (allowsEmpty = true ∧ w = .str "") := by
  cases kind with
  | any => exact .inl .any
  | text c => exact holds_of_check_text h
  | number c => exact .inl (holds_of_check_number h)
  | boolean =>
      rw [check] at h
      split at h
      · obtain rfl := Option.some.inj (congrArg Checked.value h)
        exact .inl .boolean
      · cases h
  | date =>
      rw [check] at h
      split at h
      · next date hread =>
        obtain ⟨s, -, hs⟩ := Option.bind_eq_some_iff.mp hread
        obtain rfl := Option.some.inj (congrArg Checked.value h)
        exact .inl (.date (Date.inAnswerRange_of_ofText? hs))
      · cases h
  | dateTime =>
      rw [check] at h
      split at h
      · next moment hread =>
        obtain ⟨s, -, hs⟩ := Option.bind_eq_some_iff.mp hread
        obtain rfl := Option.some.inj (congrArg Checked.value h)
        exact .inl (.dateTime (DateTime.inAnswerRange_of_ofText? hs))
      · cases h

end Leaf

namespace Rule

/-! ## Conforming -/

/-- Whether a rule asks for a value to be there: a choice does if the branch picked does. -/
def demands (siblings : Option Fields) : Rule → Bool
  | .choose sibling is revealed hidden _ =>
    if picks siblings sibling is then revealed.demands siblings else hidden.demands siblings
  | rule => rule.attributes.required

/-- Whether a rule stands for one of two others. -/
def isChoice : Rule → Bool
  | .choose _ _ _ _ _ => true
  | _ => false

/-- A value conforms to a rule, where `siblings` are the members given beside it and `given` is what
the value comes from. What was given matters to choices alone. -/
inductive Conforms (options : ValidationOptions) :
    Rule → Option Fields → Option Json → Json → Prop
  | allowed {rule : Rule} {siblings : Option Fields} {given : Option Json} {value : Json}
      (hchoice : rule.isChoice = false) (h : rule.attributes.allows value = true) :
      Conforms options rule siblings given value
  | leaf {kind : Leaf} {a : Attributes} {siblings : Option Fields} {given : Option Json}
      {value : Json} (h : kind.Holds value) (hadmits : a.Admits value) :
      Conforms options (.leaf kind a) siblings given value
  | array {item : Rule} {a : Attributes} {siblings : Option Fields} {items items' : List Json}
      (h : ∀ (index : Nat) (y : Json), items'[index]? = some y →
        Conforms options item none items[index]? y)
      (hadmits : a.Admits (.arr items')) :
      Conforms options (.array item a) siblings (some (.arr items)) (.arr items')
  | object {keys : List (String × Rule)} {unknown : Bool} {a : Attributes}
      {siblings : Option Fields} {fields fields' : Fields} (hordered : fields'.Ordered)
      (hpresent : ∀ entry ∈ keys, entry.2.demands (some fields) = true →
        fields'.has entry.1 = true)
      (hdeclared : ∀ entry ∈ keys, ∀ y, fields'.get? entry.1 = some y →
        Conforms options entry.2 (some fields) (fields.get? entry.1) y)
      (hknown : (unknown || options.allowUnknown) = true ∨
        ∀ member ∈ fields', Keys.has keys member.1 = true)
      (hadmits : a.Admits (.obj fields')) :
      Conforms options (.object keys unknown a) siblings (some (.obj fields)) (.obj fields')
  | alternatives {rules : List Rule} {a : Attributes} {siblings : Option Fields}
      {given : Option Json} {value : Json} {rule : Rule} (hrule : rule ∈ rules)
      (h : Conforms options rule siblings given value) (hadmits : a.Admits value) :
      Conforms options (.alternatives rules a) siblings given value
  | choose {sibling : String} {is : Json} {revealed hidden : Rule} {a : Attributes}
      {siblings : Option Fields} {given : Option Json} {value : Json}
      (h : Conforms options (if picks siblings sibling is then revealed else hidden) siblings given
        value) :
      Conforms options (.choose sibling is revealed hidden a) siblings given value

section

variable {options : ValidationOptions} {siblings : Option Fields}

/-- What attributes let through conforms, if what is converted does. -/
theorem conforms_of_frames {rule : Rule} (hchoice : rule.isChoice = false)
    {converts : Json → Json → Prop} {given : Option Json} {value : Json}
    (h : rule.attributes.Frames converts given (some value))
    (hconverts : ∀ v, given = some v → converts v value → rule.attributes.Admits value →
      Conforms options rule siblings given value) :
    Conforms options rule siblings given value := by
  cases h with
  | allowed h => exact .allowed hchoice h
  | converted _ h hadmits =>
      rcases hadmits with hallows | hadmits
      · exact .allowed hchoice hallows
      · exact hconverts _ rfl h hadmits

theorem required_of_frames_none {a : Attributes} {converts : Json → Json → Prop}
    {given : Option Json} (h : a.Frames converts given none) : a.required = false := by
  cases h with
  | absent h => exact h

/-- A rule that lets a value be missing does not ask for it. -/
theorem Takes.not_demands {rule : Rule} {given : Option Json}
    (h : rule.Takes options siblings given none) : rule.demands siblings = false := by
  induction rule using Rule.induction generalizing given with
  | leaf kind a => exact required_of_frames_none (takes_leaf_iff.mp h)
  | object keys unknown a _ => exact required_of_frames_none (check_object_eq_iff.mp h)
  | array item a _ => exact required_of_frames_none (takes_array_iff.mp h)
  | alternatives rules a _ => exact required_of_frames_none (takes_alternatives_iff.mp h)
  | choose sibling is revealed hidden a ihr ihh =>
      rw [takes_choose_iff] at h
      rw [demands]
      split at h
      · next hpicks =>
        rw [if_pos hpicks]
        exact ihr h
      · next hpicks =>
        rw [if_neg hpicks]
        exact ihh h

/-- What a rule makes of a value conforms to it. -/
theorem Takes.conforms {rule : Rule} (hkeyed : rule.Keyed) {given : Option Json} {value : Json}
    (h : rule.Takes options siblings given (some value)) :
    Conforms options rule siblings given value := by
  induction rule using Rule.induction generalizing siblings given value with
  | leaf kind a =>
      refine conforms_of_frames rfl (takes_leaf_iff.mp h) ?_
      rintro v rfl ⟨-, hcheck⟩ hadmits
      rcases Leaf.holds_of_check hcheck with hholds | ⟨hempty, rfl⟩
      · exact .leaf hholds hadmits
      · exact .allowed rfl hempty
  | object keys unknown a ih =>
      cases hkeyed with
      | object hnodup hkeyed =>
      refine conforms_of_frames rfl ((takes_object_iff hnodup).mp h) ?_
      rintro v rfl ⟨fields, fields', rfl, rfl, hmembers⟩ hadmits
      refine .object hmembers.ordered ?_ ?_ hmembers.refused_converted hadmits
      · intro entry hentry hdemands
        -- A member that its rule lets be missing is not asked for.
        by_contra hhas
        have htakes := hmembers.known entry hentry
        rw [Option.not_isSome_iff_eq_none.mp hhas] at htakes
        exact nomatch htakes.not_demands.symm.trans hdemands
      · intro entry hentry y hy
        have htakes := hmembers.known entry hentry
        rw [hy] at htakes
        exact ih entry hentry (hkeyed entry hentry) htakes
  | array item a ih =>
      cases hkeyed with
      | array hkeyed =>
      refine conforms_of_frames rfl (takes_array_iff.mp h) ?_
      rintro v rfl ⟨hitems⟩ hadmits
      refine .array (fun index y hy => ?_) hadmits
      obtain ⟨hindex, rfl⟩ := List.getElem?_eq_some_iff.mp hy
      have hindex' := hitems.length_eq.symm ▸ hindex
      rw [List.getElem?_eq_getElem hindex']
      exact ih hkeyed (hitems.get hindex' hindex)
  | alternatives rules a ih =>
      cases hkeyed with
      | alternatives hkeyed =>
      refine conforms_of_frames rfl (takes_alternatives_iff.mp h) ?_
      rintro v rfl ⟨-, before, rule, after, rfl, hfirst⟩ hadmits
      have hmem : rule ∈ before ++ rule :: after := by simp
      exact .alternatives hmem (ih rule hmem (hkeyed rule hmem) hfirst.takes) hadmits
  | choose sibling is revealed hidden a ihr ihh =>
      cases hkeyed with
      | choose hrevealed hhidden =>
      refine .choose ?_
      rw [takes_choose_iff] at h
      split
      · next hpicks =>
        rw [if_pos hpicks] at h
        exact ihr hrevealed h
      · next hpicks =>
        rw [if_neg hpicks] at h
        exact ihh hhidden h

/-- Whatever validation gives conforms to the rule. -/
theorem conforms_of_validate {rule : Rule} (hkeyed : rule.Keyed) {given value : Json}
    (h : rule.validate options given = .ok value) :
    Conforms options rule none (some given) value :=
  (validate_eq_ok_iff.mp h).conforms hkeyed

end

/-- A text that begins with a capital. -/
def capitalised : Text.Pattern where
  source := "^[A-Z]"
  accepts s := s.toList.head?.any Char.isUpper

/-- Someone who stays, by name and age. -/
def guestRule : Rule :=
  ofKeys [("age", (number.whole.atLeast .nan).atMost (Binary64.ofNat 120)),
    ("name", ((text.atMost (Binary64.ofNat 5)).matching capitalised).required)]

/-- The guests, how long they stay, and, if overnight, until when. -/
def bookingRule : Rule :=
  ofKeys [("guests", (arrayOf guestRule).required),
    ("stay", text.among [.str "day", .str "night"]),
    ("until", chosenBy "stay" (.str "night") date.required any)]

/-- A guest's age and name are converted, the stay picks the rule of the last day, and that is made
canonical. -/
theorem conforms_of_validate_booking :
    Conforms {} bookingRule none
      (some (.obj [("guests", .arr [.obj [("age", .str "42"), ("name", .str " Ann")]]),
        ("stay", .str "night"), ("until", .str "5 March 2024")]))
      (.obj [("guests", .arr [.obj [("age", .ofNat 42), ("name", .str "Ann")]]),
        ("stay", .str "night"), ("until", .str "2024-03-05")]) := by
  have hguest : guestRule.Keyed := by
    refine .object (by decide) ?_
    simp only [List.forall_mem_cons]
    exact ⟨.leaf, .leaf, nofun⟩
  have hkeyed : bookingRule.Keyed := by
    refine .object (by decide) ?_
    simp only [List.forall_mem_cons]
    exact ⟨.array hguest, .leaf, .choose .leaf .leaf, nofun⟩
  exact conforms_of_validate hkeyed (by decide +kernel)

end Rule

end Questionnaire
