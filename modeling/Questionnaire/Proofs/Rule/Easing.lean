import Questionnaire.Proofs.Rule.Settled
import Questionnaire.Proofs.Rule.Locality

/-!
# Rules that are eased

A rule that wants an answer is eased by making the answer optional and a blank welcome. What it takes
while it wants an answer it takes once it is eased, and gives the same (`Takes.eased`): the only
value that is met in another way is the blank itself, and a rule that takes a blank gives it back
(`Takes.eq_blank`).

Rules without a choice in them make the same of a value whatever stands beside it (`Alone.check_eq`).
-/

namespace Questionnaire

/-- What stands for no answer: nothing in the state, and an empty text in submitted data. -/
def Json.IsBlank (blank : Json) : Prop :=
  blank = .null ∨ blank = .str ""

theorem Json.IsBlank.eq_of_same {blank value : Json} (h : blank.IsBlank)
    (hsame : blank.same value = true) : value = blank := by
  rcases h with rfl | rfl
  · exact same_null_iff.mp hsame
  · exact same_str_iff.mp hsame

/-- A kind of value that takes a value where the empty text is not welcome makes the same of it
where it is. -/
theorem Leaf.check_of_allowsEmpty {kind : Leaf} {allowsEmpty allowsEmpty' : Bool} {label : String}
    {value converted : Json} (h : kind.check allowsEmpty label value = .pass converted)
    (himp : allowsEmpty = true → allowsEmpty' = true) :
    kind.check allowsEmpty' label value = .pass converted := by
  cases allowsEmpty with
  | true => rwa [himp rfl]
  | false =>
      cases kind with
      | text c =>
          cases value with
          | str raw =>
              simp only [check] at h ⊢
              generalize (if c.trim = true then Text.trim raw else raw) = text at h ⊢
              by_cases hempty : text = ""
              · rw [if_pos hempty] at h
                cases h
              · rwa [if_neg hempty] at h ⊢
          | _ => cases h
      | _ => exact h

namespace Attributes

variable {a : Attributes} {converts converts' : Json → Json → Prop}

/-- The attributes of a rule that is eased. -/
def ease (blank : Json) (a : Attributes) : Attributes :=
  if a.allow.any (·.same blank) then { a with required := false }
  else { a with required := false, allow := a.allow ++ [blank] }

theorem allows_ease_of_allows {blank value : Json} (h : a.allows value = true) :
    (a.ease blank).allows value = true := by
  unfold ease
  split
  · exact h
  · rw [allows, List.any_append, ← allows, h, Bool.true_or]

theorem allows_of_allows_ease {blank value : Json} (hblank : blank.IsBlank)
    (h : (a.ease blank).allows value = true) : a.allows value = true ∨ value = blank := by
  unfold ease at h
  split at h
  · exact .inl h
  · rw [allows, List.any_append, Bool.or_eq_true, List.any_cons, List.any_nil, Bool.or_false] at h
    exact h.imp_right hblank.eq_of_same

/-- What attributes let through that want an answer, they let through once they are eased. -/
theorem Frames.ease {blank : Json} (hblank : blank.IsBlank) {value converted : Option Json}
    (h : a.Frames converts value converted)
    (hself : ∀ w, a.allows blank = false → converts blank w → w = blank)
    (himp : ∀ v w, converts v w → converts' v w) :
    (a.ease blank).Frames converts' value converted := by
  have hrequired : (a.ease blank).required = false := by
    unfold Attributes.ease
    split <;> rfl
  have hvalid : (a.ease blank).valid = a.valid := by
    unfold Attributes.ease
    split <;> rfl
  cases h with
  | absent _ => exact .absent hrequired
  | allowed h => exact .allowed (allows_ease_of_allows h)
  | @converted v w hvalue h hadmits =>
      cases hallow : (a.ease blank).allows v with
      | true =>
          obtain rfl : v = blank :=
            (allows_of_allows_ease hblank hallow).resolve_left (by simp [hvalue])
          obtain rfl := hself w hvalue h
          exact .allowed hallow
      | false =>
          refine .converted hallow (himp v w h) (hadmits.imp allows_ease_of_allows fun hamong => ?_)
          intro choices hchoices
          exact hamong choices (hvalid ▸ hchoices)

end Attributes

namespace Rule

variable {options : ValidationOptions} {siblings : Option Fields}

/-- A rule with an answer that may be left out, and a blank that is welcome. -/
theorem optional_allowing (blank : Json) (rule : Rule) :
    rule.optional.allowing blank = rule.mapAttributes (Attributes.ease blank) := by
  cases rule <;> rfl

theorem converted_eq_blank {kind : Leaf} {a : Attributes} {blank converted : Json}
    (hblank : blank.IsBlank) (hallows : a.allows blank = false)
    (h : (blank = .null → kind = .any) ∧
      kind.check (a.allows (.str "")) rootName blank = .pass converted) : converted = blank := by
  obtain ⟨hnull, hcheck⟩ := h
  by_cases hkind : kind = .any
  · subst hkind
    cases hcheck
    rfl
  · rcases hblank with rfl | rfl
    · exact absurd (hnull rfl) hkind
    · rw [hallows] at hcheck
      exact absurd (congrArg Checked.failures hcheck) (Leaf.check_empty hkind rootName)

/-- A rule that takes a blank gives it back. -/
theorem Takes.eq_blank {rule : Rule} {blank converted : Json} (hblank : blank.IsBlank)
    (h : rule.Takes options siblings (some blank) (some converted)) : converted = blank := by
  have hnotArr : ∀ items, blank ≠ .arr items := by rcases hblank with rfl | rfl <;> exact nofun
  have hnotObj : ∀ fields, blank ≠ .obj fields := by rcases hblank with rfl | rfl <;> exact nofun
  induction rule using Rule.induction generalizing siblings converted with
  | leaf kind a =>
      rcases takes_leaf_iff.mp h with - | - | ⟨hallows, h, -⟩
      · rfl
      · exact converted_eq_blank hblank hallows h
  | object keys unknown a _ =>
      rcases check_object_eq_iff.mp h with - | - | ⟨-, ⟨hknown, hunknown⟩, -⟩
      · rfl
      · exact absurd rfl (hnotObj _)
  | array item a _ =>
      rcases takes_array_iff.mp h with - | - | ⟨-, ⟨hitems⟩, -⟩
      · rfl
      · exact absurd rfl (hnotArr _)
  | alternatives rules a ih =>
      rcases takes_alternatives_iff.mp h with - | - | ⟨-, ⟨-, before, rule, after, rfl, hfirst⟩, -⟩
      · rfl
      · exact ih rule (by simp) hfirst.takes
  | choose sibling is revealed hidden a ihr ihh =>
      rw [takes_choose_iff] at h
      split at h
      · exact ihr h
      · exact ihh h

/-- What a rule takes, wanting an answer or not, it takes once it is eased, and gives the same. -/
theorem Takes.eased {rule : Rule} {blank : Json} (hblank : blank.IsBlank)
    {value converted : Option Json} (h : rule.Takes options siblings value converted) :
    (rule.optional.allowing blank).Takes options siblings value converted := by
  rw [optional_allowing]
  cases rule with
  | leaf kind a =>
      refine takes_leaf_iff.mpr ((takes_leaf_iff.mp h).ease hblank ?_ ?_)
      · exact fun w hallows h => converted_eq_blank hblank hallows h
      · exact fun v w ⟨hnull, hcheck⟩ =>
          ⟨hnull, Leaf.check_of_allowsEmpty hcheck Attributes.allows_ease_of_allows⟩
  | object keys unknown a =>
      refine check_object_eq_iff.mpr ((check_object_eq_iff.mp h).ease hblank ?_ fun _ _ h => h)
      rintro w - ⟨-, -⟩
      rcases hblank with heq | heq <;> exact nomatch heq
  | array item a =>
      refine takes_array_iff.mpr ((takes_array_iff.mp h).ease hblank ?_ fun _ _ h => h)
      rintro w - ⟨-⟩
      rcases hblank with heq | heq <;> exact nomatch heq
  | alternatives rules a =>
      refine takes_alternatives_iff.mpr
        ((takes_alternatives_iff.mp h).ease hblank ?_ fun _ _ h => h)
      rintro w - ⟨-, before, rule, after, -, hfirst⟩
      exact hfirst.takes.eq_blank hblank
  | choose sibling is revealed hidden a => exact takes_choose_iff.mpr (takes_choose_iff.mp h)

/-! ## Rules that look at nothing else -/

/-- A rule in which no choice is come to beside the value itself. -/
inductive Alone : Rule → Prop
  | leaf {kind : Leaf} {a : Attributes} : Alone (.leaf kind a)
  | object {keys : Keys} {unknown : Bool} {a : Attributes} : Alone (.object keys unknown a)
  | array {item : Rule} {a : Attributes} : Alone (.array item a)
  | alternatives {rules : List Rule} {a : Attributes} (h : ∀ rule ∈ rules, Alone rule) :
      Alone (.alternatives rules a)

theorem Alone.mapAttributes {rule : Rule} (h : rule.Alone) (f : Attributes → Attributes) :
    (rule.mapAttributes f).Alone := by
  cases h with
  | leaf => exact .leaf
  | object => exact .object
  | array => exact .array
  | alternatives h => exact .alternatives h

theorem consultedInTurn_eq_nil {rules : List Rule} {fields : Fields} {value : Json}
    (h : ∀ rule ∈ rules, rule.consulted options fields (some value) = []) :
    consultedInTurn options fields rules value = [] := by
  induction rules with
  | nil => rw [consultedInTurn]
  | cons rule rest ih =>
      rw [consultedInTurn, h rule (List.mem_cons_self ..),
        ih fun other hother => h other (List.mem_cons_of_mem _ hother)]
      simp

theorem Alone.consulted_eq_nil {rule : Rule} (h : rule.Alone) (fields : Fields)
    (value : Option Json) : rule.consulted options fields value = [] := by
  induction h generalizing value with
  | leaf => rw [consulted]
  | object => rw [consulted]
  | array => rw [consulted]
  | alternatives h ih =>
      cases value with
      | none => rw [consulted]
      | some value =>
          rw [consulted, consultedInTurn_eq_nil fun rule hrule => ih rule hrule (some value), ite_self]

/-- Such a rule makes the same of a value beside any members. -/
theorem Alone.check_eq {rule : Rule} (h : rule.Alone) (fields other : Fields) (name : String)
    (value : Option Json) :
    rule.check options name (some other) value = rule.check options name (some fields) value := by
  refine check_of_agrees ?_ name
  rw [h.consulted_eq_nil]
  exact nofun

end Rule

end Questionnaire
