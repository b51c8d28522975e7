import Questionnaire.Number.Shortest
import Questionnaire.Proofs.Number.Whole
import Questionnaire.Proofs.Text.Digits

/-!
# Nearest numbers

Rounding depends on the quotient alone (`nearestUnits_mul_mul`). Before a written number is rounded,
its size is compared with the range of the numbers; a decimal that rounds to a number in the range
has such a size (`Decimal.size_le_of_units`, `Decimal.le_size_of_units`), so it is read as the number
(`DecimalNotation.nearest_of_units`).
-/

namespace Questionnaire

/-! ## Rounding -/

theorem roundHalfEven_mul_mul (num den : Nat) {scale : Nat} (h : 0 < scale) :
    roundHalfEven (num * scale) (den * scale) = roundHalfEven num den := by
  have hless : 2 * (num % den * scale) < den * scale ↔ 2 * (num % den) < den := by
    rw [← Nat.mul_assoc, Nat.mul_lt_mul_right h]
  have hmore : den * scale < 2 * (num % den * scale) ↔ den < 2 * (num % den) := by
    rw [← Nat.mul_assoc, Nat.mul_lt_mul_right h]
  simp only [roundHalfEven, Nat.mul_div_mul_right _ _ h, Nat.mul_mod_mul_right, hless, hmore]

/-- Rounding depends on the quotient alone. -/
theorem nearestUnits_mul_mul (num den : Nat) {scale : Nat} (h : 0 < scale) :
    nearestUnits (num * scale) (den * scale) = nearestUnits num den := by
  simp only [nearestUnits, Nat.mul_div_mul_right _ _ h, Nat.mul_right_comm den scale,
    roundHalfEven_mul_mul _ _ h]

theorem div_le_roundHalfEven (num den : Nat) : num / den ≤ roundHalfEven num den := by
  simp only [roundHalfEven]
  split
  · exact Nat.le_refl _
  · split
    · omega
    · split <;> omega

theorem le_of_roundHalfEven_pos {num den : Nat} (h : 0 < roundHalfEven num den) :
    den ≤ 2 * num := by
  by_contra hlt
  have hless : num < den := by omega
  simp only [roundHalfEven, Nat.div_eq_of_lt hless, Nat.mod_eq_of_lt hless] at h
  split at h
  · exact Nat.lt_irrefl 0 h
  · next hnot => exact hnot (by omega)

theorem le_of_nearestUnits_pos {num den : Nat} (h : 0 < nearestUnits num den) : den ≤ 2 * num := by
  have hround := le_of_roundHalfEven_pos (Nat.pos_of_mul_pos_right h)
  exact Nat.le_trans (Nat.le_mul_of_pos_right den (twoPow_pos _)) hround

theorem div_lt_two_mul_nearestUnits {num den : Nat} (h : 0 < num / den) :
    num / den < 2 * nearestUnits num den := by
  have hdiv := div_le_roundHalfEven num (den * twoPow ((num / den).log2 - 52))
  rw [← Nat.div_div_eq_div_mul] at hdiv
  have hle : twoPow ((num / den).log2 - 52) ≤ num / den := by
    refine Nat.le_trans (twoPow_le (Nat.sub_le _ 52)) ?_
    exact Nat.log2_self_le (by omega)
  have hpos := twoPow_pos ((num / den).log2 - 52)
  rw [nearestUnits]
  generalize twoPow ((num / den).log2 - 52) = power at hdiv hle hpos ⊢
  generalize roundHalfEven num (den * power) = rounded at hdiv ⊢
  generalize num / den = quotient at hdiv hle h ⊢
  have hone : 1 ≤ quotient / power := (Nat.one_le_div_iff hpos).mpr hle
  -- Rounding drops less than one step, and the quotient has at least one.
  have hsplit := Nat.div_add_mod quotient power
  have hmod := Nat.mod_lt quotient hpos
  calc quotient = power * (quotient / power) + quotient % power := hsplit.symm
    _ < power * (quotient / power) + power := by omega
    _ ≤ power * (quotient / power) + power * (quotient / power) :=
        Nat.add_le_add_left (Nat.le_mul_of_pos_right power hone) _
    _ = 2 * (quotient / power * power) := by rw [Nat.mul_comm power, Nat.two_mul]
    _ ≤ 2 * (rounded * power) := Nat.mul_le_mul_left 2 (Nat.mul_le_mul_right power hdiv)

/-! ## The size of what rounds to a number -/

theorem twoPow_le_tenPow {m n : Nat} (h : m ≤ 3 * n) : twoPow m ≤ tenPow n := by
  refine Nat.le_trans (twoPow_le h) ?_
  rw [twoPow, tenPow, Nat.pow_eq, Nat.pow_eq, Nat.pow_mul]
  exact Nat.pow_le_pow_left (by decide) n

theorem tenPow_add (m n : Nat) : tenPow (m + n) = tenPow m * tenPow n :=
  Nat.pow_add 10 m n

theorem tenPow_le_of_length {n : Nat} (h : n ≠ 0) :
    tenPow ((toString n).length - 1) ≤ n := by
  have hlength : (toString n).length = (toString n).toList.length := String.length_toList.symm
  by_contra hlt
  have hpos : 0 < (toString n).length - 1 := by
    by_contra hzero
    have : (toString n).length - 1 = 0 := by omega
    rw [this] at hlt
    exact hlt (Nat.one_le_iff_ne_zero.mpr h)
  have hle := (length_toString_le_iff (n := n) hpos).mpr (Nat.lt_of_not_le hlt)
  omega

theorem lt_tenPow_length (n : Nat) : n < tenPow (toString n).length := by
  have hlength : (toString n).length = (toString n).toList.length := String.length_toList.symm
  have hpos : 0 < (toString n).length := by
    rw [hlength]
    exact List.length_pos_iff.mpr (toString_toList_ne_nil n)
  exact (length_toString_le_iff hpos).mp (by omega)

/-- How many digits a decimal has before the point. -/
def Decimal.size (d : Decimal) : Int :=
  ((toString d.digits).length : Int) + d.exponent

/-- A decimal with many digits before the point is large. -/
theorem Decimal.le_quotient {d : Decimal} (limit : Nat) (hdigits : d.digits ≠ 0)
    (hsize : limit < d.size) : tenPow limit * unitsPerOne ≤ d.quotient.1 / d.quotient.2 := by
  have hdigits := tenPow_le_of_length hdigits
  rw [Decimal.size] at hsize
  rw [Decimal.quotient]
  generalize (toString d.digits).length = length at hdigits hsize
  generalize unitsPerOne = scale
  split
  · next hexponent =>
    rw [Nat.div_one]
    refine Nat.mul_le_mul_right _ ?_
    calc tenPow limit ≤ tenPow (length - 1 + d.exponent.toNat) :=
          Nat.pow_le_pow_right (by decide) (by omega)
      _ = tenPow (length - 1) * tenPow d.exponent.toNat := tenPow_add _ _
      _ ≤ d.digits * tenPow d.exponent.toNat := Nat.mul_le_mul_right _ hdigits
  · next hexponent =>
    rw [Nat.le_div_iff_mul_le (tenPow_pos _)]
    calc tenPow limit * scale * tenPow (-d.exponent).toNat
        = tenPow (limit + (-d.exponent).toNat) * scale := by
          rw [tenPow_add, Nat.mul_right_comm]
      _ ≤ tenPow (length - 1) * scale :=
          Nat.mul_le_mul_right _ (Nat.pow_le_pow_right (by decide) (by omega))
      _ ≤ d.digits * scale := Nat.mul_le_mul_right _ hdigits

theorem two_mul_twoPow (n : Nat) : 2 * twoPow n = twoPow (n + 1) := by
  rw [twoPow_add, Nat.mul_comm]
  rfl

theorem two_mul_unitsLimit_le : 2 * unitsLimit ≤ tenPow 400 * unitsPerOne := by
  rw [unitsLimit, unitsPerOne, two_mul_twoPow]
  refine Nat.le_trans (twoPow_le (n := 1025 + 1074) (by decide)) ?_
  rw [twoPow_add 1025 1074]
  exact Nat.mul_le_mul_right _ (twoPow_le_tenPow (by decide))

theorem two_mul_unitsPerOne_le : 2 * unitsPerOne ≤ tenPow 400 := by
  rw [unitsPerOne, two_mul_twoPow]
  exact twoPow_le_tenPow (by decide)

theorem Decimal.size_le_of_units {d : Decimal} (hdigits : d.digits ≠ 0)
    (h : d.units < unitsLimit) : d.size ≤ 400 := by
  by_contra hsize
  have hquotient := Decimal.le_quotient 400 hdigits (by omega)
  have hpos := Nat.mul_pos (tenPow_pos 400) Binary64.unitsPerOne_pos
  have hless := div_lt_two_mul_nearestUnits (Nat.lt_of_lt_of_le hpos hquotient)
  have hunits := Nat.mul_lt_mul_of_pos_left h Nat.two_pos
  have hlarge := Nat.le_trans two_mul_unitsLimit_le hquotient
  exact Nat.lt_irrefl _ (Nat.lt_of_le_of_lt hlarge (Nat.lt_trans hless hunits))

theorem Decimal.le_size_of_units {d : Decimal} (h : 0 < d.units) : -400 ≤ d.size := by
  by_contra hsize
  have hle := le_of_nearestUnits_pos h
  have hdigits := lt_tenPow_length d.digits
  have hlarge := two_mul_unitsPerOne_le
  have hpos := Binary64.unitsPerOne_pos
  rw [Decimal.size] at hsize
  rw [Decimal.quotient, if_neg (by omega)] at hle
  generalize (toString d.digits).length = length at hdigits hsize
  generalize unitsPerOne = scale at hle hlarge hpos
  -- As a variable the limit keeps its power of ten from being computed.
  obtain ⟨limit, hlimit⟩ : ∃ limit, limit = 400 := ⟨_, rfl⟩
  rw [← hlimit] at hlarge
  refine Nat.lt_irrefl (tenPow (-d.exponent).toNat) ?_
  calc tenPow (-d.exponent).toNat ≤ 2 * (d.digits * scale) := hle
    _ = d.digits * (2 * scale) := by rw [Nat.mul_left_comm]
    _ < tenPow length * (2 * scale) :=
        Nat.mul_lt_mul_of_pos_right hdigits (Nat.mul_pos Nat.two_pos hpos)
    _ ≤ tenPow length * tenPow limit := Nat.mul_le_mul_left _ hlarge
    _ = tenPow (length + limit) := (tenPow_add _ _).symm
    _ ≤ tenPow (-d.exponent).toNat := Nat.pow_le_pow_right (by decide) (by omega)

theorem Decimal.digits_ne_zero {d : Decimal} (h : 0 < d.units) : d.digits ≠ 0 := by
  intro hzero
  have hle := le_of_nearestUnits_pos h
  rw [Decimal.quotient, hzero] at hle
  split at hle
  · simp at hle
  · have := tenPow_pos (-d.exponent).toNat
    simp at hle
    omega

/-- A decimal that rounds to a positive number of units in range is read as that number. -/
theorem DecimalNotation.nearest_of_units {d : Decimal} {x : Binary64} (hunits : d.units = x.units)
    (hpos : 0 < x.units) :
    DecimalNotation.nearest ⟨x.negative, d.digits, d.exponent⟩ = .finite x := by
  have hdigits := Decimal.digits_ne_zero (hunits ▸ hpos)
  have hle := Decimal.size_le_of_units hdigits (hunits ▸ x.representable.2)
  have hge := Decimal.le_size_of_units (hunits ▸ hpos)
  rw [Decimal.size] at hle hge
  have hfinite : Extended64.ofUnits x.negative d.quotient.1 d.quotient.2 = .finite x := by
    have hnearest : nearestUnits d.quotient.1 d.quotient.2 = x.units := hunits
    have hlimit := x.representable.2
    rw [← hnearest] at hlimit
    rw [Extended64.ofUnits, dif_pos hlimit]
    obtain ⟨negative, units, hrepresentable⟩ := x
    simp only [hnearest]
  rw [Decimal.quotient] at hfinite
  -- Neither shortcut for numbers far out of range applies.
  have hnot : ¬ (d.digits = 0 ∨ ((toString d.digits).length : Int) + d.exponent < -400) := by
    rintro (hzero | hsmall)
    · exact hdigits hzero
    · omega
  simp only [DecimalNotation.nearest, if_neg hnot]
  rw [if_neg (by omega)]
  by_cases hexponent : 0 ≤ d.exponent
  · rw [if_pos hexponent] at hfinite ⊢
    exact hfinite
  · rw [if_neg hexponent] at hfinite ⊢
    exact hfinite

end Questionnaire
