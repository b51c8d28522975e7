import Questionnaire.Number.Power

/-!
# Binary floating-point numbers, exactly

The finite binary64 numbers of IEEE 754 (`Binary64`), as exact integers: every finite number is a
whole multiple of `2 ^ -1074`, the smallest positive one, so a number is a sign and a count of these
units. A count is representable when it has at most 53 significant bits and stays below `2 ^ 1024`.
Arithmetic can leave this range for an infinity (`Extended64`), and a bound may be no number at all
(`Float64`).

Rounding takes an exact quotient to the nearest representable count, a half to the even neighbour
(`nearestUnits`, `representable_nearestUnits`, `nearestUnits_mul`). Nothing here uses machine
floating point.
-/

namespace Questionnaire

/-- How many units of `2 ^ -1074` make one. -/
def unitsPerOne : Nat := twoPow 1074

/-- The first count of units beyond the finite range, `2 ^ 1024` in units. -/
def unitsLimit : Nat := twoPow 2098

/-- A count of units with at most 53 significant bits, inside the finite range. -/
def Representable (units : Nat) : Prop :=
  twoPow (units.log2 - 52) ∣ units ∧ units < unitsLimit

instance (units : Nat) : Decidable (Representable units) :=
  inferInstanceAs (Decidable (_ ∧ _))

theorem unitsLimit_pos : 0 < unitsLimit :=
  twoPow_pos 2098

theorem representable_zero : Representable 0 :=
  ⟨Nat.dvd_zero _, unitsLimit_pos⟩

/-- Fifty-three bits, shifted, are representable; so is the power of two above them. -/
theorem representable_mul_twoPow {mantissa shift : Nat} (hm : mantissa ≤ twoPow 53)
    (hlimit : mantissa * twoPow shift < unitsLimit) : Representable (mantissa * twoPow shift) := by
  refine ⟨?_, hlimit⟩
  rcases Nat.lt_or_eq_of_le hm with hlt | rfl
  · by_cases hzero : mantissa = 0
    · simp [hzero]
    · have hne : mantissa * twoPow shift ≠ 0 :=
        Nat.mul_ne_zero hzero (Nat.ne_of_gt (twoPow_pos _))
      have hlog : (mantissa * twoPow shift).log2 < 53 + shift := by
        rw [log2_lt_iff hne, twoPow_add]
        exact Nat.mul_lt_mul_of_pos_right hlt (twoPow_pos _)
      have hle : (mantissa * twoPow shift).log2 - 52 ≤ shift := by omega
      exact Nat.dvd_trans (twoPow_dvd hle) (Nat.dvd_mul_left _ _)
  · rw [← twoPow_add, log2_twoPow]
    exact twoPow_dvd (by omega)

/-- The quotient of two counts rounded to a whole number, a half going to the even neighbour. -/
def roundHalfEven (num den : Nat) : Nat :=
  let quotient := num / den
  let twice := 2 * (num % den)
  if twice < den then quotient
  else if den < twice then quotient + 1
  else if quotient % 2 = 0 then quotient else quotient + 1

theorem roundHalfEven_le (num den : Nat) : roundHalfEven num den ≤ num / den + 1 := by
  simp only [roundHalfEven]
  split
  · omega
  · split
    · omega
    · split <;> omega

theorem roundHalfEven_mul (quotient : Nat) {den : Nat} (h : 0 < den) :
    roundHalfEven (quotient * den) den = quotient := by
  simp [roundHalfEven, Nat.mul_div_cancel _ h, h]

/-- The count with 53 significant bits nearest to a quotient. -/
def nearestUnits (num den : Nat) : Nat :=
  let shift := (num / den).log2 - 52
  roundHalfEven num (den * twoPow shift) * twoPow shift

theorem representable_nearestUnits {num den : Nat} (h : nearestUnits num den < unitsLimit) :
    Representable (nearestUnits num den) := by
  refine representable_mul_twoPow (Nat.le_trans (roundHalfEven_le _ _) ?_) h
  rw [← Nat.div_div_eq_div_mul]
  have hlt : num / den < twoPow ((num / den).log2 + 1) := lt_twoPow_log2 _
  have hle : twoPow ((num / den).log2 + 1) ≤ twoPow ((num / den).log2 - 52) * twoPow 53 := by
    rw [← twoPow_add]
    exact twoPow_le (by omega)
  have := Nat.div_lt_of_lt_mul (Nat.lt_of_lt_of_le hlt hle)
  omega

/-- Rounding leaves alone what is representable. -/
theorem nearestUnits_mul {units den : Nat} (h : Representable units) (hden : 0 < den) :
    nearestUnits (units * den) den = units := by
  obtain ⟨quotient, hquotient⟩ := h.1
  simp only [nearestUnits, Nat.mul_div_cancel _ hden]
  have hsplit : units * den = quotient * (den * twoPow (units.log2 - 52)) := by
    conv => lhs; rw [hquotient]
    rw [Nat.mul_comm (twoPow _) quotient, Nat.mul_assoc, Nat.mul_comm (twoPow _) den]
  rw [hsplit, roundHalfEven_mul _ (Nat.mul_pos hden (twoPow_pos _)), Nat.mul_comm]
  exact hquotient.symm

/-- A finite binary64 number. Zero has both signs. -/
structure Binary64 where
  negative : Bool
  /-- The magnitude, in units of `2 ^ -1074`. -/
  units : Nat
  representable : Representable units
deriving DecidableEq

/-- A binary64 number, or what lies beyond the finite range on either side. -/
inductive Extended64 where
  | finite (x : Binary64)
  | infinite (negative : Bool)
deriving DecidableEq

/-- Any value that binary64 has: a number, an infinity, or no number at all. -/
inductive Float64 where
  | number (x : Extended64)
  | nan
deriving DecidableEq

instance : Coe Binary64 Float64 := ⟨fun x => .number (.finite x)⟩

/-- Rounds a quotient of units to the nearest number; beyond the finite range it is infinite. -/
def Extended64.ofUnits (negative : Bool) (num den : Nat) : Extended64 :=
  if h : nearestUnits num den < unitsLimit then
    .finite ⟨negative, nearestUnits num den, representable_nearestUnits h⟩
  else .infinite negative

/-- The number nearest to a quotient. -/
def Extended64.nearest (negative : Bool) (num den : Nat) : Extended64 :=
  .ofUnits negative (num * unitsPerOne) den

/-- The finite number, if it is one. -/
def Extended64.finite? : Extended64 → Option Binary64
  | .finite x => some x
  | .infinite _ => none

namespace Binary64

/-- Zero, with a sign. -/
def zero (negative : Bool) : Binary64 := ⟨negative, 0, representable_zero⟩

instance : Inhabited Binary64 := ⟨zero false⟩

/-- The signed count of units, so that numbers compare as integers do. -/
def toUnits (x : Binary64) : Int :=
  if x.negative then -(x.units : Int) else x.units

/-- A natural number of at most 53 bits. -/
def ofNat (n : Nat) (h : n < twoPow 53 := by decide) : Binary64 :=
  ⟨false, n * unitsPerOne, representable_mul_twoPow (Nat.le_of_lt h) (by
    have hlimit : twoPow 53 * twoPow 1074 ≤ unitsLimit := by
      rw [← twoPow_add]
      exact twoPow_le (by decide)
    exact Nat.lt_of_lt_of_le (Nat.mul_lt_mul_of_pos_right h (twoPow_pos 1074)) hlimit)⟩

/-- The number nearest to an integer, or infinite. -/
def ofInt (i : Int) : Extended64 :=
  .nearest (decide (i < 0)) i.natAbs 1

/-- Whether nothing is left after the point. -/
def isWhole (x : Binary64) : Bool :=
  x.units % unitsPerOne == 0

/-- The integer part, rounding toward zero. -/
def truncate (x : Binary64) : Int :=
  let whole : Int := (x.units / unitsPerOne : Nat)
  if x.negative then -whole else whole

/-- The order by value; both zeros are equal under it. -/
def lt (x y : Binary64) : Bool :=
  decide (x.toUnits < y.toUnits)

/-- Equality by value: only the two zeros are equal without being the same. -/
def same (x y : Binary64) : Bool :=
  decide (x.toUnits = y.toUnits)

/-- The number with zero's sign forgotten. -/
def unsignedZero (x : Binary64) : Binary64 :=
  if x.units = 0 then zero false else x

/-- Whether the number is zero, of either sign. -/
def isZero (x : Binary64) : Bool :=
  x.units == 0

theorem toUnits_unsignedZero (x : Binary64) : x.unsignedZero.toUnits = x.toUnits := by
  unfold unsignedZero
  split
  · next h => simp [toUnits, zero, h]
  · rfl

end Binary64

namespace Extended64

/-- The order by value, the infinities at the two ends. -/
def lt : Extended64 → Extended64 → Bool
  | .finite x, .finite y => x.lt y
  | .finite _, .infinite negative => !negative
  | .infinite negative, .finite _ => negative
  | .infinite xNegative, .infinite yNegative => xNegative && !yNegative

/-- Equality by value. -/
def same : Extended64 → Extended64 → Bool
  | .finite x, .finite y => x.same y
  | .infinite xNegative, .infinite yNegative => xNegative == yNegative
  | _, _ => false

/-- Whether the number is zero, of either sign. -/
def isZero : Extended64 → Bool
  | .finite x => x.isZero
  | .infinite _ => false

end Extended64

/-- The order by value. What is no number is neither less nor greater than anything. -/
def Float64.lt : Float64 → Float64 → Bool
  | .number x, .number y => x.lt y
  | _, _ => false

end Questionnaire
