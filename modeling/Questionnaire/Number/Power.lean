/-!
# Powers and limits

The powers of two and ten by which numbers are scaled, with the laws that rounding rests on, and the
limits of machine words.
-/

namespace Questionnaire

/-- A power of two. -/
def twoPow (n : Nat) : Nat := Nat.pow 2 n

/-- A power of ten. -/
def tenPow (n : Nat) : Nat := Nat.pow 10 n

/-- One more than the greatest integer of 32 bits without a sign. -/
abbrev word32Limit : Nat := 4294967296

/-- One more than the greatest integer of 64 bits without a sign. -/
abbrev word64Limit : Nat := 18446744073709551616

/-- One more than the greatest integer of 64 bits with a sign; also the size of the least. -/
abbrev int64Limit : Nat := 9223372036854775808

theorem twoPow_pos (n : Nat) : 0 < twoPow n :=
  Nat.two_pow_pos n

theorem tenPow_pos (n : Nat) : 0 < tenPow n :=
  Nat.pow_pos (by decide)

theorem twoPow_add (m n : Nat) : twoPow (m + n) = twoPow m * twoPow n :=
  Nat.pow_add 2 m n

theorem tenPow_eq (n : Nat) : tenPow n = Nat.pow 5 n * twoPow n :=
  Nat.mul_pow 5 2 n

theorem twoPow_le {m n : Nat} (h : m ≤ n) : twoPow m ≤ twoPow n :=
  Nat.pow_le_pow_right (by decide) h

theorem twoPow_dvd {m n : Nat} (h : m ≤ n) : twoPow m ∣ twoPow n :=
  Nat.pow_dvd_pow 2 h

theorem log2_twoPow (n : Nat) : (twoPow n).log2 = n :=
  Nat.log2_two_pow

theorem log2_lt_iff {m n : Nat} (h : m ≠ 0) : m.log2 < n ↔ m < twoPow n :=
  Nat.log2_lt h

theorem lt_twoPow_log2 (m : Nat) : m < twoPow (m.log2 + 1) :=
  Nat.lt_log2_self

end Questionnaire
