import Questionnaire.Proofs.Number.Spelling

/-!
# Integers as numbers

An integer of 64 bits is read as the number nearest to it, whether it is given as an integer or as
its decimal text (`Binary64.ofText?_toString`). The number is the integer itself just when the
integer has at most 53 significant bits (`representable_mul_unitsPerOne_iff`), so it is kept as the
same integer when that is so and its size is below `2 ^ 63` (`Leaf.numberValue_toBinary64_iff`).
-/

namespace Questionnaire

/-- Whether an integer is kept as it is: it has at most 53 significant bits, and its size is below
`2 ^ 63`. -/
def IsExact (i : Int) : Prop :=
  twoPow (i.natAbs.log2 - 52) ∣ i.natAbs ∧ i.natAbs < int64Limit

instance (i : Int) : Decidable (IsExact i) :=
  inferInstanceAs (Decidable (_ ∧ _))

/-! ## Counts of units -/

theorem log2_mul_twoPow {m : Nat} (h : m ≠ 0) (n : Nat) : (m * twoPow n).log2 = m.log2 + n := by
  have hne : m * twoPow n ≠ 0 := Nat.mul_ne_zero h (Nat.ne_of_gt (twoPow_pos n))
  rw [Nat.log2_eq_iff hne]
  have hlow : twoPow m.log2 ≤ m := Nat.log2_self_le h
  have hhigh : m < twoPow (m.log2 + 1) := lt_twoPow_log2 m
  constructor
  · show twoPow (m.log2 + n) ≤ m * twoPow n
    rw [twoPow_add]
    exact Nat.mul_le_mul_right _ hlow
  · show m * twoPow n < twoPow (m.log2 + n + 1)
    rw [Nat.add_right_comm, twoPow_add]
    exact Nat.mul_lt_mul_of_pos_right hhigh (twoPow_pos n)

/-- Twice an integer of 64 bits is well within the range of the numbers. -/
theorem two_mul_units_lt {m : Nat} (h : m ≤ word64Limit) :
    2 * (m * unitsPerOne) + 1 < unitsLimit := by
  have hlimit : 2 * (word64Limit * unitsPerOne) + 1 < unitsLimit := by decide +kernel
  have hscaled := Nat.mul_le_mul_right unitsPerOne h
  omega

/-- An integer of 64 bits is a number just when it has at most 53 significant bits. -/
theorem representable_mul_unitsPerOne_iff {m : Nat} (h : m ≤ word64Limit) :
    Representable (m * unitsPerOne) ↔ twoPow (m.log2 - 52) ∣ m := by
  have hsize := two_mul_units_lt h
  by_cases hzero : m = 0
  · subst hzero
    rw [Nat.zero_mul]
    exact iff_of_true representable_zero (Nat.dvd_zero _)
  rw [Representable, unitsPerOne, log2_mul_twoPow hzero]
  constructor
  · rintro ⟨hdvd, -⟩
    by_cases hsmall : m.log2 < 52
    · rw [Nat.sub_eq_zero_of_le (Nat.le_of_lt hsmall)]
      exact Nat.one_dvd m
    · have hshift : m.log2 + 1074 - 52 = m.log2 - 52 + 1074 := by omega
      rw [hshift, twoPow_add] at hdvd
      exact Nat.dvd_of_mul_dvd_mul_right (twoPow_pos 1074) hdvd
  · intro hdvd
    have hscaled := Nat.mul_dvd_mul_right hdvd (twoPow 1074)
    rw [← twoPow_add] at hscaled
    refine ⟨Nat.dvd_trans (twoPow_dvd (by omega)) hscaled, ?_⟩
    rw [unitsPerOne] at hsize
    omega

/-- Rounding at most doubles a quotient, but for one below one. -/
theorem nearestUnits_le (num den : Nat) : nearestUnits num den ≤ 2 * (num / den) + 1 := by
  have hround := roundHalfEven_le num (den * twoPow ((num / den).log2 - 52))
  rw [← Nat.div_div_eq_div_mul] at hround
  rw [nearestUnits]
  by_cases hzero : num / den = 0
  · rw [hzero] at hround ⊢
    have hone : twoPow (Nat.log2 0 - 52) = 1 := by decide
    rw [hone, Nat.mul_one] at hround ⊢
    simpa using hround
  -- The step of the grid is at most the quotient, and rounding goes up by at most one step.
  have hle : twoPow ((num / den).log2 - 52) ≤ num / den := by
    refine Nat.le_trans (twoPow_le (Nat.sub_le _ 52)) ?_
    exact Nat.log2_self_le hzero
  have hdiv := Nat.div_mul_le_self (num / den) (twoPow ((num / den).log2 - 52))
  generalize twoPow ((num / den).log2 - 52) = power at *
  generalize roundHalfEven num (den * power) = rounded at *
  generalize num / den = quotient at *
  calc rounded * power ≤ (quotient / power + 1) * power := Nat.mul_le_mul_right _ hround
    _ = quotient / power * power + power := Nat.succ_mul _ _
    _ ≤ 2 * quotient + 1 := by omega

namespace Binary64

theorem natAbs_le_of_isWord {i : Int} (h : IsWord i) : i.natAbs ≤ word64Limit := by
  simp only [IsWord, int64Limit, word64Limit] at h ⊢
  omega

/-- An integer of 64 bits has a nearest number, with its sign. -/
theorem ofInt_eq_finite {i : Int} (h : IsWord i) :
    ofInt i = .finite (Number.int i h).toBinary64 ∧
      (Number.int i h).toBinary64.negative = decide (i < 0) ∧
      (Number.int i h).toBinary64.units = nearestUnits (i.natAbs * unitsPerOne) 1 := by
  have hle := nearestUnits_le (i.natAbs * unitsPerOne) 1
  have hsize := two_mul_units_lt (natAbs_le_of_isWord h)
  rw [Nat.div_one] at hle
  have hlimit := Nat.lt_of_le_of_lt hle hsize
  have hfinite : ofInt i = .finite ⟨decide (i < 0), nearestUnits (i.natAbs * unitsPerOne) 1,
      representable_nearestUnits hlimit⟩ := by
    rw [ofInt, Extended64.nearest, Extended64.ofUnits, dif_pos hlimit]
  rw [Number.toBinary64, hfinite]
  exact ⟨rfl, rfl, rfl⟩

/-- Only zero is read as zero. -/
theorem isZero_toBinary64_iff {i : Int} (h : IsWord i) :
    (Number.int i h).toBinary64.isZero = true ↔ i = 0 := by
  obtain ⟨-, -, hunits⟩ := ofInt_eq_finite h
  rw [isZero, beq_iff_eq, hunits]
  constructor
  · intro hnone
    by_contra hne
    have hpos := Nat.mul_pos (Int.natAbs_pos.mpr hne) unitsPerOne_pos
    have hless := div_lt_two_mul_nearestUnits (Nat.div_pos hpos Nat.one_pos)
    rw [hnone] at hless
    exact Nat.not_lt_zero _ hless
  · rintro rfl
    rw [Int.natAbs_zero, Nat.zero_mul]
    rfl

/-- The decimal text of an integer of 64 bits is read as the number nearest to the integer. -/
theorem ofText?_toString {i : Int} (h : IsWord i) :
    ofText? (toString i) = some (Number.int i h).toBinary64 := by
  obtain ⟨hfinite, -, -⟩ := ofInt_eq_finite h
  have hread := DecimalNotation.ofChars?_whole (toString_toList_ne_nil i.natAbs)
    isDigit_of_mem_toString endsDigits_nil nofun rfl (decide (i < 0))
  rw [List.append_nil, ← toList_toString_int, digitsValue_toString] at hread
  have hnearest : DecimalNotation.nearest ⟨decide (i < 0), i.natAbs, 0⟩ = ofInt i := by
    by_cases hzero : i = 0
    · subst hzero
      decide +kernel
    · have hlength : (toString i.natAbs).length ≤ 20 := by
        rw [← String.length_toList, length_toString_le_iff (by decide)]
        exact Nat.lt_of_le_of_lt (natAbs_le_of_isWord h) (by decide)
      simp only [DecimalNotation.nearest]
      rw [if_neg (by omega), if_neg (by omega), if_pos (Int.le_refl 0)]
      show Extended64.nearest _ (i.natAbs * 1) 1 = _
      rw [Nat.mul_one]
      rfl
  rw [ofText?, hread, Option.bind_some, hnearest, hfinite]
  rfl

end Binary64

namespace Leaf

/-- The number nearest to an integer of 64 bits is kept as that integer just when it is exact. -/
theorem numberValue_toBinary64_iff {i : Int} (h : IsWord i) :
    numberValue (Number.int i h).toBinary64 = .num (.int i h) ↔ IsExact i := by
  obtain ⟨-, hsign, hunits⟩ := Binary64.ofInt_eq_finite h
  have hrepresentable := representable_mul_unitsPerOne_iff (Binary64.natAbs_le_of_isWord h)
  rw [IsExact, ← hrepresentable]
  generalize (Number.int i h).toBinary64 = x at hsign hunits ⊢
  constructor
  · intro hkept
    by_cases hwhole : KeptWhole x
    · rw [numberValue_of_keptWhole hwhole] at hkept
      have htruncate : x.truncate = i := Number.int.inj (Json.num.inj hkept)
      have hunits := Binary64.units_eq_of_isWhole hwhole.1
      rw [htruncate] at hunits
      exact ⟨hunits ▸ x.representable, htruncate ▸ hwhole.2⟩
    · rw [numberValue_of_not_keptWhole hwhole] at hkept
      cases hkept
  · intro ⟨hexact, hsmall⟩
    have hunits : x.units = i.natAbs * unitsPerOne :=
      hunits.trans (Binary64.nearestUnits_units ⟨false, _, hexact⟩)
    have hwhole : x.isWhole = true := by simp [Binary64.isWhole, hunits]
    have htruncate : x.truncate = i := by
      rw [Binary64.truncate_def, hunits, Nat.mul_div_cancel _ Binary64.unitsPerOne_pos, hsign]
      simp only [decide_eq_true_eq]
      split <;> omega
    rw [numberValue_of_keptWhole ⟨hwhole, htruncate.symm ▸ hsmall⟩]
    simp only [htruncate]

end Leaf

end Questionnaire
