import Questionnaire.Proofs.Rule.Taking

/-!
# Values that a rule welcomes

A rule looks twice among the values that it welcomes: for the value as it is given, before anything
else is asked of it, and for what it has been converted to. By then the constraints have been asked
of the converted value, and what they found stands (`Leaf.check_of_converted`). So a welcome value
is accepted as it is whatever the constraints say, and in another spelling only if it keeps them
(`Rule.validate_allowed`).
-/

namespace Questionnaire

namespace Leaf

/-- What a value of a kind is converted to, or a text that spells one. -/
def converted? (kind : Leaf) (value : Json) : Option Json :=
  match kind, value with
  | .any, value => some value
  | .text c, .str raw => some (.str (if c.trim then Text.trim raw else raw))
  | .text _, _ => none
  | .number _, value => (numberOf? value).map numberValue
  | .boolean, value => (booleanOf? value).map Json.bool
  | .date, value => (value.str?.bind Date.ofText?).map fun date => .str date.canonical
  | .dateTime, value => (value.str?.bind DateTime.ofText?).map fun moment => .str moment.canonical

/-- The constraints of a kind that a value of it breaks. The empty text is not held against any. -/
def faults (kind : Leaf) (value : Json) : List Fault :=
  match kind, value with
  | .text c, .str s => if s = "" then [] else textFaults c s
  | .number c, .num n => numberFaults c n.toBinary64
  | _, _ => []

/-- The constraints on a number do not ask whether it is kept as an integer. -/
theorem faults_numberValue (c : NumberConstraints) (x : Binary64) :
    (Leaf.number c).faults (numberValue x) = numberFaults c x := by
  obtain ⟨y, hread, -, hsame⟩ := numberOf?_numberValue x
  obtain ⟨n, hn⟩ := numberValue_eq_num x
  rw [hn] at hread ⊢
  obtain rfl := Option.some.inj hread
  exact hsame c

/-- A check of a value of its kind gives the converted value and the constraints that this breaks,
unless it is the empty text and not welcome. -/
theorem check_of_converted {kind : Leaf} {value converted : Json}
    (h : kind.converted? value = some converted) {allowsEmpty : Bool}
    (hempty : converted = .str "" → allowsEmpty = true) (label : String) :
    kind.check allowsEmpty label value =
      ⟨some converted, (kind.faults converted).map (⟨[], label, ·⟩)⟩ := by
  cases kind with
  | any =>
      obtain rfl := Option.some.inj h
      rfl
  | text c =>
      cases value with
      | str raw =>
          obtain rfl := Option.some.inj h
          simp only [check, faults]
          generalize (if c.trim = true then Text.trim raw else raw) = s at hempty ⊢
          by_cases hs : s = ""
          · subst hs
            simp only [if_pos, hempty rfl]
            rfl
          · simp only [if_neg hs]
      | _ => cases h
  | number c =>
      obtain ⟨x, hread, rfl⟩ := Option.map_eq_some_iff.mp h
      rw [check, hread, faults_numberValue]
  | boolean =>
      obtain ⟨b, hread, rfl⟩ := Option.map_eq_some_iff.mp h
      rw [check, hread]
      rfl
  | date =>
      obtain ⟨date, hread, rfl⟩ := Option.map_eq_some_iff.mp h
      rw [check, hread]
      rfl
  | dateTime =>
      obtain ⟨moment, hread, rfl⟩ := Option.map_eq_some_iff.mp h
      rw [check, hread]
      rfl

theorem converted?_null {kind : Leaf} {converted : Json}
    (h : kind.converted? .null = some converted) : converted = .null := by
  cases kind with
  | any => exact (Option.some.inj h).symm
  | _ => cases h

end Leaf

/-- A welcome value that was not welcome as it was given is not asked for anything more. -/
theorem Attributes.finish_allowed {a : Attributes} {value converted : Json}
    (hallowed : a.allows converted = true) (hvalue : a.allows value = false) (label : String)
    (failures : List Failure) :
    a.finish label value ⟨some converted, failures⟩ = ⟨some converted, failures⟩ := by
  -- Values that are the same are welcome together, so the conversion has changed the value.
  have hdiffers : converted.same value = false := by
    rw [← Bool.not_eq_true]
    intro hsame
    rw [allows_congr hsame, hvalue] at hallowed
    cases hallowed
  simp [finish, hdiffers, hallowed]

namespace Rule

/-- A value that a rule welcomes is accepted as it is, whatever else the rule asks. A value that is
converted to it is accepted as the welcome value if that keeps the constraints, and otherwise refused
for each of them that it breaks; which values the rule asks for beside the welcome ones makes no
difference. -/
theorem validate_allowed (kind : Leaf) (a : Attributes) (options : ValidationOptions)
    {allowed : Json} (hallowed : a.allows allowed = true) :
    (Rule.leaf kind a).validate options allowed = .ok allowed ∧
      ∀ value, kind.converted? value = some allowed → a.allows value = false →
        (Rule.leaf kind a).validate options value =
          if kind.faults allowed = [] then .ok allowed
          else .error ((kind.faults allowed).map (⟨[], a.label.getD rootName, ·⟩)) := by
  constructor
  · have hcheck : (Rule.leaf kind a).check options rootName none (some allowed) = .pass allowed := by
      rw [check]
      exact if_pos hallowed
    rw [validate, hcheck]
    rfl
  · intro value hconverted hvalue
    have hne : value ≠ .null := by
      rintro rfl
      rw [Leaf.converted?_null hconverted, hvalue] at hallowed
      cases hallowed
    have hempty : allowed = .str "" → a.allows (.str "") = true := by
      rintro rfl
      exact hallowed
    have hcheck : (Rule.leaf kind a).check options rootName none (some value) =
        ⟨some allowed, (kind.faults allowed).map (⟨[], a.label.getD rootName, ·⟩)⟩ := by
      rw [check, Attributes.apply_some hvalue hne, Leaf.check_of_converted hconverted hempty,
        Attributes.finish_allowed hallowed hvalue]
    rw [validate, hcheck]
    simp only [List.isEmpty_map, List.isEmpty_iff]
    split <;> rfl

/-- A fare is three or five, and two at least; it is four with a card, and nothing for a child. -/
def fareRule : Rule :=
  (((Rule.number.atLeast (Binary64.ofNat 2)).among [.ofInt 3, .ofInt 5]).allowing (.ofInt 4)).allowing
    (.ofInt 0)

/-- Both of the welcome fares are accepted as numbers; as a text nothing is not, for it is less than
two. -/
theorem validate_allowed_fare :
    (fareRule.validate {} (.ofInt 4) = .ok (.ofInt 4) ∧
        fareRule.validate {} (.str " 4 ") = .ok (.ofInt 4)) ∧
      fareRule.validate {} (.ofInt 0) = .ok (.ofInt 0) ∧
        fareRule.validate {} (.str "0") = .error [⟨[], "value", .tooSmall (Binary64.ofNat 2)⟩] := by
  have hrule : fareRule = .leaf (.number { min := some ↑(Binary64.ofNat 2) })
      { allow := [.ofInt 4, .ofInt 0], valid := some [.ofInt 3, .ofInt 5] } := by
    rfl
  obtain ⟨hfour, hfour'⟩ := @validate_allowed (.number { min := some ↑(Binary64.ofNat 2) })
    { allow := [.ofInt 4, .ofInt 0], valid := some [.ofInt 3, .ofInt 5] } {} (.ofInt 4)
    (by decide +kernel)
  obtain ⟨hzero, hzero'⟩ := @validate_allowed (.number { min := some ↑(Binary64.ofNat 2) })
    { allow := [.ofInt 4, .ofInt 0], valid := some [.ofInt 3, .ofInt 5] } {} (.ofInt 0)
    (by decide +kernel)
  rw [hrule]
  refine ⟨⟨hfour, ?_⟩, hzero, ?_⟩
  · exact (hfour' (.str " 4 ") (by decide +kernel) (by decide +kernel)).trans
      (if_pos (by decide +kernel))
  · exact (hzero' (.str "0") (by decide +kernel) (by decide +kernel)).trans
      (by decide +kernel)

end Rule

end Questionnaire
