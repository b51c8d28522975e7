import Questionnaire.Rule.Validation

/-!
# Whole numbers in floating point

A whole number below `2 ^ 63` is kept as an integer. The integer has the value that the number had
(`ofInt_truncate`), so what a rule asks of numbers, and what it makes of them, does not depend on
which of the two it is given (`numberOf?_numberValue`).
-/

namespace Questionnaire

namespace Binary64

/-- Numbers of one value differ at most in the sign of zero. -/
structure SameValue (x y : Binary64) : Prop where
  units_eq : x.units = y.units
  toUnits_eq : x.toUnits = y.toUnits

theorem SameValue.isWhole_eq {x y : Binary64} (h : x.SameValue y) : x.isWhole = y.isWhole := by
  rw [isWhole, isWhole, h.units_eq]

theorem SameValue.lt_left {x y : Binary64} (h : x.SameValue y) (bound : Float64) :
    Float64.lt x bound = Float64.lt y bound := by
  rcases bound with (z | negative) | _
  · show x.lt z = y.lt z
    rw [lt, lt, h.toUnits_eq]
  · rfl
  · rfl

theorem SameValue.lt_right {x y : Binary64} (h : x.SameValue y) (bound : Float64) :
    bound.lt x = bound.lt y := by
  rcases bound with (z | negative) | _
  · show z.lt x = z.lt y
    rw [lt, lt, h.toUnits_eq]
  · rfl
  · rfl

theorem unitsPerOne_pos : 0 < unitsPerOne := twoPow_pos 1074

theorem truncate_def (x : Binary64) :
    x.truncate = if x.negative then -((x.units / unitsPerOne : Nat) : Int)
      else ((x.units / unitsPerOne : Nat) : Int) := rfl

theorem natAbs_truncate (x : Binary64) : x.truncate.natAbs = x.units / unitsPerOne := by
  rw [truncate_def]
  generalize x.units / unitsPerOne = whole
  split <;> omega

theorem units_eq_of_isWhole {x : Binary64} (h : x.isWhole = true) :
    x.truncate.natAbs * unitsPerOne = x.units := by
  rw [natAbs_truncate]
  exact Nat.div_mul_cancel (Nat.dvd_of_mod_eq_zero (by simpa [isWhole] using h))

theorem nearestUnits_units (x : Binary64) : nearestUnits x.units 1 = x.units := by
  have hnearest := nearestUnits_mul x.representable Nat.one_pos
  rwa [Nat.mul_one] at hnearest

/-- A whole number is the nearest number to its integer part. -/
theorem ofInt_truncate {x : Binary64} (h : x.isWhole = true) :
    ∃ y, ofInt x.truncate = .finite y ∧ y.SameValue x := by
  have hlt : nearestUnits x.units 1 < unitsLimit := by
    rw [nearestUnits_units]
    exact x.representable.2
  refine ⟨⟨decide (x.truncate < 0), nearestUnits x.units 1, representable_nearestUnits hlt⟩,
    ?_, nearestUnits_units x, ?_⟩
  · rw [ofInt, Extended64.nearest, Extended64.ofUnits, units_eq_of_isWhole h, dif_pos hlt]
  · show (if decide (x.truncate < 0) = true then -((nearestUnits x.units 1 : Nat) : Int)
      else (nearestUnits x.units 1 : Nat)) = x.toUnits
    have hunits := units_eq_of_isWhole h
    rw [natAbs_truncate] at hunits
    rw [nearestUnits_units, toUnits, truncate_def]
    generalize x.units / unitsPerOne = whole at hunits ⊢
    rw [← hunits]
    generalize unitsPerOne = scale
    cases x.negative with
    | false =>
        have hpos : ¬ (whole : Int) < 0 := by omega
        simp [hpos]
    | true =>
        -- Only zero loses its sign, and zero has the same units with either.
        by_cases hzero : whole = 0
        · simp [hzero]
        · simp [hzero]

theorem SameValue.truncate_eq {x y : Binary64} (h : x.SameValue y) : x.truncate = y.truncate := by
  have hsigned := h.toUnits_eq
  rw [toUnits, toUnits, h.units_eq] at hsigned
  rw [truncate_def, truncate_def, h.units_eq]
  by_cases hzero : y.units = 0
  · simp [hzero]
  · have hsign : x.negative = y.negative := by
      cases hx : x.negative <;> cases hy : y.negative <;> simp only [hx, hy] at hsigned ⊢ <;>
        simp at hsigned <;> omega
    rw [hsign]

end Binary64

namespace Leaf

theorem numberFaults_eq {x y : Binary64} (h : x.SameValue y) (c : NumberConstraints) :
    numberFaults c x = numberFaults c y := by
  unfold numberFaults
  simp only [h.isWhole_eq, h.lt_left, h.lt_right]

/-- A number that breaks no constraint is whole where it is asked to be, and past no bound. -/
theorem numberFaults_eq_nil {c : NumberConstraints} {x : Binary64} (h : numberFaults c x = []) :
    (c.whole = true → x.isWhole = true) ∧ (∀ min, c.min = some min → Float64.lt x min = false) ∧
      ∀ max, c.max = some max → max.lt x = false := by
  simp only [numberFaults, List.append_eq_nil_iff] at h
  obtain ⟨⟨hwhole, hmin⟩, hmax⟩ := h
  refine ⟨?_, ?_, ?_⟩
  · intro hasked
    simpa [hasked] using hwhole
  · intro min hasked
    simpa [hasked] using hmin
  · intro max hasked
    simpa [hasked] using hmax

/-- Whether a number is kept as an integer. -/
def KeptWhole (x : Binary64) : Prop :=
  x.isWhole ∧ x.truncate.natAbs < int64Limit

instance (x : Binary64) : Decidable (KeptWhole x) :=
  inferInstanceAs (Decidable (_ ∧ _))

theorem isWord_of_natAbs_lt {i : Int} (h : i.natAbs < int64Limit) : IsWord i := by
  simp only [IsWord, int64Limit, word64Limit] at h ⊢
  omega

theorem numberValue_of_keptWhole {x : Binary64} (h : KeptWhole x) :
    numberValue x = .num (.int x.truncate (isWord_of_natAbs_lt h.2)) := by
  have hvalue : numberValue x = .ofInt x.truncate := if_pos h
  rw [hvalue, Json.ofInt, Number.ofInt, dif_pos (isWord_of_natAbs_lt h.2)]

theorem numberValue_of_not_keptWhole {x : Binary64} (h : ¬ KeptWhole x) :
    numberValue x = .num (.float x) :=
  if_neg h

theorem numberValue_eq {x y : Binary64} (h : x.SameValue y) (hx : KeptWhole x) :
    numberValue y = numberValue x := by
  have hy : KeptWhole y := by
    rwa [KeptWhole, ← h.isWhole_eq, ← h.truncate_eq]
  rw [numberValue_of_keptWhole hx, numberValue_of_keptWhole hy]
  simp only [h.truncate_eq]

theorem numberValue_eq_num (x : Binary64) : ∃ n, numberValue x = .num n := by
  by_cases h : KeptWhole x
  · exact ⟨_, numberValue_of_keptWhole h⟩
  · exact ⟨_, numberValue_of_not_keptWhole h⟩

/-- The value kept of a number counts as given unless the number is zero. -/
theorem isTruthy_numberValue (x : Binary64) : (numberValue x).isTruthy = !x.isZero := by
  by_cases h : KeptWhole x
  · obtain ⟨y, hy, hsame⟩ := Binary64.ofInt_truncate h.1
    have hzero : y.isZero = x.isZero := by rw [Binary64.isZero, Binary64.isZero, hsame.units_eq]
    rw [numberValue_of_keptWhole h, Json.isTruthy, Number.toBinary64, hy]
    exact congrArg Bool.not hzero
  · rw [numberValue_of_not_keptWhole h]
    rfl

/-- The value kept of a number is read as a number of that value again, and kept as it is. -/
theorem numberOf?_numberValue (x : Binary64) :
    ∃ y, numberOf? (numberValue x) = some y ∧ numberValue y = numberValue x ∧
      ∀ c, numberFaults c y = numberFaults c x := by
  by_cases h : KeptWhole x
  · obtain ⟨y, hy, hsame⟩ := Binary64.ofInt_truncate h.1
    have hvalue := numberValue_eq ⟨hsame.units_eq.symm, hsame.toUnits_eq.symm⟩ h
    refine ⟨y, ?_, hvalue, numberFaults_eq hsame⟩
    rw [numberValue_of_keptWhole h]
    show some (((Binary64.ofInt x.truncate).finite?).getD default) = some y
    rw [hy]
    rfl
  · refine ⟨x, ?_, rfl, fun _ => rfl⟩
    rw [numberValue_of_not_keptWhole h]
    rfl

end Leaf

end Questionnaire
