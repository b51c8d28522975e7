import Questionnaire.Number.Binary64

/-!
# Shortest decimals

The decimal with the fewest digits that reads back as a given binary64 number, and of those the one
nearest to it. On the grid of multiples of `10 ^ e` only the number's two neighbours can be the
nearest points that read back, so the first grid, from coarse to fine, on which a neighbour does
gives the digits. What is found reads back (`shortestDecimal_units`).
-/

namespace Questionnaire

/-- Which of two equally near decimals is taken. -/
inductive TieRule where
  | toEven
  | up
deriving DecidableEq

/-- The decimal `digits * 10 ^ exponent`. -/
structure Decimal where
  digits : Nat
  exponent : Int
deriving DecidableEq

namespace Decimal

/-- The value in units, as a quotient. -/
def quotient (d : Decimal) : Nat × Nat :=
  if 0 ≤ d.exponent then (d.digits * tenPow d.exponent.toNat * unitsPerOne, 1)
  else (d.digits * unitsPerOne, tenPow (-d.exponent).toNat)

/-- The count of units that the decimal rounds to. -/
def units (d : Decimal) : Nat :=
  nearestUnits d.quotient.1 d.quotient.2

theorem quotient_neg (digits : Nat) {places : Nat} (h : 0 < places) :
    (Decimal.mk digits (-(places : Int))).quotient = (digits * unitsPerOne, tenPow places) := by
  have hneg : ¬ (0 : Int) ≤ -(places : Int) := by omega
  simp only [quotient, if_neg hneg, Int.neg_neg, Int.toNat_natCast]

/-- The value of `count * 2 ^ -places` with all its digits. -/
def ofDyadic (count places : Nat) : Decimal :=
  ⟨count * Nat.pow 5 places, -(places : Int)⟩

/-- Where one is `2 ^ places` units, a count of units is a decimal of that many places. -/
theorem units_ofDyadic {units places : Nat} (h : Representable units) (hplaces : 0 < places)
    (hone : unitsPerOne = twoPow places) : (ofDyadic units places).units = units := by
  rw [ofDyadic, Decimal.units, quotient_neg _ hplaces, hone, Nat.mul_assoc, ← tenPow_eq]
  exact nearestUnits_mul h (tenPow_pos _)

/-- The first of two decimals that reads back as a count of units. -/
def firstReading? (units : Nat) (nearer farther : Decimal) : Option Decimal :=
  if nearer.units = units then some nearer
  else if farther.units = units then some farther
  else none

theorem units_of_firstReading? {units : Nat} {nearer farther d : Decimal}
    (h : firstReading? units nearer farther = some d) : d.units = units := by
  unfold firstReading? at h
  split at h
  · next hunits => exact Option.some.inj h ▸ hunits
  · split at h
    · next hunits => exact Option.some.inj h ▸ hunits
    · exact nomatch h

/--
The point nearest to a count of units on the grid of multiples of `10 ^ exponent`, if it reads back;
otherwise the neighbour on the other side, if that one does.
-/
def onGrid? (tie : TieRule) (units : Nat) (exponent : Int) : Option Decimal :=
  let step := (Decimal.mk 1 exponent).quotient
  let below := units * step.2 / step.1
  let twiceGap := 2 * (units * step.2 % step.1)
  if step.1 < twiceGap || (twiceGap == step.1 && (tie = .up || below % 2 == 1)) then
    firstReading? units ⟨below + 1, exponent⟩ ⟨below, exponent⟩
  else firstReading? units ⟨below, exponent⟩ ⟨below + 1, exponent⟩

theorem units_of_onGrid? {tie : TieRule} {units : Nat} {exponent : Int} {d : Decimal}
    (h : onGrid? tie units exponent = some d) : d.units = units := by
  simp only [onGrid?] at h
  split at h <;> exact units_of_firstReading? h

/-- The first hit on the grids from `exponent` downwards, trying as many as `steps`. -/
def search? (tie : TieRule) (units : Nat) : Nat → Int → Option Decimal
  | 0, _ => none
  | steps + 1, exponent =>
    (onGrid? tie units exponent).or (search? tie units steps (exponent - 1))

theorem units_of_search? {tie : TieRule} {units steps : Nat} {exponent : Int} {d : Decimal}
    (h : search? tie units steps exponent = some d) : d.units = units := by
  induction steps generalizing exponent with
  | zero => exact nomatch h
  | succ steps ih =>
    rw [search?, Option.or_eq_some_iff] at h
    rcases h with hgrid | ⟨_, hrest⟩
    · exact units_of_onGrid? hgrid
    · exact ih hrest

/-- A power of ten above a count of units: an estimate from its number of bits. -/
def ceiling (units : Nat) : Int :=
  ((units.log2 : Int) - 1073) * 30103 / 100000 + 1

end Decimal

/--
The shortest decimal of a count of units. Seventeen digits tell all numbers apart, and the search
starts at most two places too high, so it never falls back on the exact value.
-/
def shortestDecimal (tie : TieRule) (units : Nat) : Decimal :=
  if units = 0 then ⟨0, 0⟩
  else (Decimal.search? tie units 22 (Decimal.ceiling units)).getD (.ofDyadic units 1074)

theorem shortestDecimal_units (tie : TieRule) {units : Nat} (h : Representable units) :
    (shortestDecimal tie units).units = units := by
  unfold shortestDecimal
  split
  · next hzero =>
    subst hzero
    simp [Decimal.units, Decimal.quotient, nearestUnits, roundHalfEven]
  · cases hsearch : Decimal.search? tie units 22 (Decimal.ceiling units) with
    | none =>
      rw [Option.getD_none]
      exact Decimal.units_ofDyadic h (by decide) (by rw [unitsPerOne])
    | some d => exact Decimal.units_of_search? hsearch

end Questionnaire
