import Questionnaire.Proofs.Calendar.Canonical
import Questionnaire.Proofs.Number.Whole

/-!
# Values that a leaf leaves alone

A leaf takes scalars only (`Leaf.isScalar_of_check`). What it converts them to it takes as it is from
then on, unless that is the empty text where it is welcome (`Leaf.settled_of_check`). The label only
names the faults (`Leaf.check_label`).
-/

namespace Questionnaire

/-- A value that a kind of value takes as it is, and that does not stand for no answer. -/
structure Leaf.Settled (kind : Leaf) (value : Json) : Prop where
  ne_null : value ≠ .null
  ne_empty : value ≠ .str ""
  check_eq : ∀ (allowsEmpty : Bool) (label : String),
    kind.check allowsEmpty label value = .pass value

namespace Leaf

theorem settled_text {c : TextConstraints} {text : String} (hne : text ≠ "")
    (htrim : (if c.trim then Text.trim text else text) = text) (hfaults : textFaults c text = []) :
    (Leaf.text c).Settled (.str text) := by
  refine ⟨nofun, by simpa using hne, ?_⟩
  intro allowsEmpty label
  simp only [check, htrim, if_neg hne, hfaults]
  rfl

theorem settled_number {c : NumberConstraints} {x : Binary64} (hfaults : numberFaults c x = []) :
    (Leaf.number c).Settled (numberValue x) := by
  obtain ⟨y, hread, hvalue, hsame⟩ := numberOf?_numberValue x
  refine ⟨?_, ?_, ?_⟩
  · intro hnull
    rw [hnull] at hread
    exact nomatch hread
  · intro hempty
    by_cases hwhole : KeptWhole x
    · rw [numberValue_of_keptWhole hwhole] at hempty
      exact nomatch hempty
    · rw [numberValue_of_not_keptWhole hwhole] at hempty
      exact nomatch hempty
  · intro allowsEmpty label
    rw [check]
    simp only [hread, hvalue, hsame, hfaults]
    rfl

theorem settled_boolean (b : Bool) : Leaf.boolean.Settled (.bool b) :=
  ⟨nofun, nofun, fun _ _ => rfl⟩

theorem settled_date {date : Date} (h : date.inAnswerRange = true) :
    Leaf.date.Settled (.str date.canonical) := by
  refine ⟨nofun, fun hempty => date.canonical_ne_empty (Json.str.inj hempty), ?_⟩
  intro allowsEmpty label
  simp [check, Json.str?, Date.ofText?_canonical h]

theorem settled_dateTime {moment : DateTime} (h : moment.date.inAnswerRange = true) :
    Leaf.dateTime.Settled (.str moment.canonical) := by
  refine ⟨nofun, fun hempty => moment.canonical_ne_empty (Json.str.inj hempty), ?_⟩
  intro allowsEmpty label
  simp [check, Json.str?, DateTime.ofText?_canonical h]

/-- What a kind of value accepts it converts to a value that it takes as it is, unless the empty
text is welcome. -/
theorem settled_of_check {kind : Leaf} (hkind : kind ≠ .any) {allowsEmpty : Bool} {label : String}
    {value : Json} (h : (kind.check allowsEmpty label value).failures = []) :
    ∃ converted, kind.check allowsEmpty label value = .pass converted ∧
      (kind.Settled converted ∨ (allowsEmpty = true ∧ converted = .str "")) := by
  cases kind with
  | any => exact absurd rfl hkind
  | text c =>
      cases value with
      | str raw =>
          simp only [check] at h ⊢
          generalize htext : (if c.trim = true then Text.trim raw else raw) = text at h ⊢
          by_cases hempty : text = ""
          · rw [if_pos hempty] at h ⊢
            cases allowsEmpty with
            | true => exact ⟨.str "", rfl, Or.inr ⟨rfl, rfl⟩⟩
            | false => exact nomatch h
          · rw [if_neg hempty] at h ⊢
            have hfaults : textFaults c text = [] := List.map_eq_nil_iff.mp h
            refine ⟨.str text, by rw [hfaults]; rfl, Or.inl (settled_text hempty ?_ hfaults)⟩
            split
            · next htrim => rw [← htext, if_pos htrim, Text.trim_trim]
            · rfl
      | _ => exact nomatch h
  | number c =>
      rw [check] at h ⊢
      cases hread : numberOf? value with
      | none =>
          rw [hread] at h
          exact nomatch h
      | some x =>
          rw [hread] at h
          have hfaults : numberFaults c x = [] := List.map_eq_nil_iff.mp h
          exact ⟨numberValue x, by simp [hfaults, Checked.pass], Or.inl (settled_number hfaults)⟩
  | boolean =>
      rw [check] at h ⊢
      cases hread : booleanOf? value with
      | none =>
          rw [hread] at h
          exact nomatch h
      | some b => exact ⟨.bool b, rfl, Or.inl (settled_boolean b)⟩
  | date =>
      rw [check] at h ⊢
      cases hread : value.str?.bind Date.ofText? with
      | none =>
          rw [hread] at h
          exact nomatch h
      | some date =>
          obtain ⟨s, -, hs⟩ := Option.bind_eq_some_iff.mp hread
          exact ⟨_, rfl, Or.inl (settled_date (Date.inAnswerRange_of_ofText? hs))⟩
  | dateTime =>
      rw [check] at h ⊢
      cases hread : value.str?.bind DateTime.ofText? with
      | none =>
          rw [hread] at h
          exact nomatch h
      | some moment =>
          obtain ⟨s, -, hs⟩ := Option.bind_eq_some_iff.mp hread
          exact ⟨_, rfl, Or.inl (settled_dateTime (DateTime.inAnswerRange_of_ofText? hs))⟩

/-- What a leaf makes of a value it takes as it is, unless that is the empty text where it is
welcome. -/
theorem check_again {kind : Leaf} {allowsEmpty : Bool} {label : String} {v w : Json}
    (hnull : v = .null → kind = .any) (h : kind.check allowsEmpty label v = .pass w)
    (hempty : ¬ (allowsEmpty = true ∧ w = .str "")) :
    (w = .null → kind = .any) ∧ kind.check allowsEmpty label w = .pass w := by
  by_cases hkind : kind = .any
  · subst hkind
    exact ⟨fun _ => rfl, rfl⟩
  · obtain ⟨w', hw, hsettled⟩ := settled_of_check hkind (congrArg Checked.failures h)
    cases h.symm.trans hw
    have hsettled := hsettled.resolve_right hempty
    exact ⟨fun hw => absurd hw hsettled.ne_null, hsettled.check_eq allowsEmpty label⟩

/-- Only scalars are taken. -/
theorem isScalar_of_check {kind : Leaf} (hkind : kind ≠ .any) {allowsEmpty : Bool} {label : String}
    {value : Json} (h : (kind.check allowsEmpty label value).failures = []) :
    value.isScalar = true := by
  cases value with
  | null | arr _ | obj _ =>
      cases kind with
      | any => exact absurd rfl hkind
      | _ => simp [check, Checked.fail, numberOf?, booleanOf?, Json.str?] at h
  | _ => rfl

theorem Settled.isScalar {kind : Leaf} (hkind : kind ≠ .any) {value : Json}
    (h : kind.Settled value) : value.isScalar = true :=
  isScalar_of_check hkind (congrArg Checked.failures (h.check_eq false ""))

theorem value_of_passes {kind : Leaf} {allowsEmpty : Bool} {label : String} {value : Json}
    (h : (kind.check allowsEmpty label value).failures = []) :
    (kind.check allowsEmpty label value).value ≠ none := by
  by_cases hkind : kind = .any
  · subst hkind
    exact nofun
  · obtain ⟨converted, hcheck, -⟩ := settled_of_check hkind h
    rw [hcheck]
    exact nofun

/-- No kind of value but the text that welcomes it takes the empty text. -/
theorem check_empty {kind : Leaf} (hkind : kind ≠ .any) (label : String) :
    (kind.check false label (.str "")).failures ≠ [] := by
  have hnumber : numberOf? (.str "") = none := by decide +kernel
  have hboolean : booleanOf? (.str "") = none := by decide +kernel
  have hdate : (Json.str "").str?.bind Date.ofText? = none := by decide +kernel
  have hdateTime : (Json.str "").str?.bind DateTime.ofText? = none := by decide +kernel
  cases kind with
  | any => exact absurd rfl hkind
  | text c =>
      have htrim : (if c.trim = true then Text.trim "" else "") = "" := by
        split
        · decide +kernel
        · rfl
      simp [check, htrim, Checked.fail]
  | number c => simp [check, hnumber, Checked.fail]
  | boolean => simp [check, hboolean, Checked.fail]
  | date => simp only [check, hdate, Checked.fail]; exact nofun
  | dateTime => simp only [check, hdateTime, Checked.fail]; exact nofun

/-! ## Labels -/

/-- A label only names the faults that a leaf finds. -/
theorem exists_faults (kind : Leaf) (allowsEmpty : Bool) (v : Json) :
    ∃ (value : Option Json) (faults : List Fault), ∀ label,
      kind.check allowsEmpty label v = ⟨value, faults.map (⟨[], label, ·⟩)⟩ := by
  cases kind with
  | any => exact ⟨some v, [], fun _ => rfl⟩
  | text c =>
      cases v with
      | str raw =>
          simp only [check]
          -- What is found depends on the trimmed text, never on the label.
          generalize (if c.trim = true then Text.trim raw else raw) = text
          by_cases hempty : text = ""
          · simp only [if_pos hempty]
            cases allowsEmpty with
            | true => exact ⟨some (.str ""), [], fun _ => rfl⟩
            | false => exact ⟨none, [.emptyText], fun _ => rfl⟩
          · simp only [if_neg hempty]
            exact ⟨_, _, fun _ => rfl⟩
      | _ => exact ⟨none, [.notText], fun _ => rfl⟩
  | number c =>
      simp only [check]
      split
      · exact ⟨_, _, fun _ => rfl⟩
      · exact ⟨none, [.notNumber], fun _ => rfl⟩
  | boolean =>
      simp only [check]
      split
      · exact ⟨_, [], fun _ => rfl⟩
      · exact ⟨none, [.notBoolean], fun _ => rfl⟩
  | date =>
      simp only [check]
      split
      · exact ⟨_, [], fun _ => rfl⟩
      · exact ⟨none, [.notDate], fun _ => rfl⟩
  | dateTime =>
      simp only [check]
      split
      · exact ⟨_, [], fun _ => rfl⟩
      · exact ⟨none, [.notDateTime], fun _ => rfl⟩

theorem check_label {kind : Leaf} {allowsEmpty : Bool} {label : String} {v w : Json}
    (h : kind.check allowsEmpty label v = .pass w) (label' : String) :
    kind.check allowsEmpty label' v = .pass w := by
  obtain ⟨value, faults, hfaults⟩ := exists_faults kind allowsEmpty v
  rw [hfaults] at h ⊢
  obtain ⟨rfl, hnil⟩ := Checked.mk.inj h
  rw [List.map_eq_nil_iff.mp hnil]
  rfl

end Leaf

end Questionnaire
