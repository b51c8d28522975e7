import Mathlib.Algebra.Group.Nat.Defs
import Questionnaire.Calendar.Layout
import Questionnaire.Proofs.Text.Trimming

/-!
# Digits

Numbers written in decimal digits, with zeros in front up to a width or without, and what reading
makes of the digits.
-/

namespace Questionnaire

theorem isDigit_iff {c : Char} : c.isDigit = true ↔ 48 ≤ c.toNat ∧ c.toNat ≤ 57 := by
  simp [Char.isDigit, UInt32.le_iff_toNat_le]

theorem isBlank_of_isDigit {c : Char} (h : c.isDigit = true) : Text.isBlank c = false := by
  obtain ⟨hlow, hhigh⟩ := isDigit_iff.mp h
  have houtside : ∀ code ∈ Text.blankCodes, code < 48 ∨ 57 < code := by decide
  rw [Text.isBlank, ← Bool.not_eq_true, List.contains_iff_mem]
  intro hmem
  have := houtside _ hmem
  omega

theorem digitsValue_eq (cs : List Char) : digitsValue cs = Nat.ofDigitChars 10 cs 0 := rfl

/-- The digits of a number. -/
theorem toList_toString (n : Nat) : (toString n).toList = Nat.toDigits 10 n :=
  Nat.toList_repr

theorem isDigit_of_mem_toString {n : Nat} : ∀ c ∈ (toString n).toList, c.isDigit = true := by
  intro c hc
  rw [toList_toString] at hc
  exact Nat.isDigit_of_mem_toDigits (by decide) (by decide) hc

theorem digitsValue_toString (n : Nat) : digitsValue (toString n).toList = n := by
  rw [toList_toString, digitsValue_eq, Nat.ofDigitChars_ten_toDigits]

theorem toString_toList_ne_nil (n : Nat) : (toString n).toList ≠ [] := by
  rw [toList_toString]
  exact Nat.toDigits_ne_nil

theorem length_toString_le_iff {n width : Nat} (h : 0 < width) :
    (toString n).toList.length ≤ width ↔ n < 10 ^ width := by
  rw [toList_toString]
  exact Nat.length_toDigits_le_iff (by decide) h

/-! ## With zeros in front -/

theorem isDigit_of_mem_paddedTo {width n : Nat} : ∀ c ∈ paddedTo width n, c.isDigit = true := by
  intro c hc
  rcases List.mem_append.mp hc with hc | hc
  · rw [List.eq_of_mem_replicate hc]
    rfl
  · exact isDigit_of_mem_toString c hc

theorem digitsValue_paddedTo (width n : Nat) : digitsValue (paddedTo width n) = n := by
  rw [paddedTo, digitsValue_eq, Nat.ofDigitChars_append, Nat.ofDigitChars_replicate_zero,
    Nat.mul_zero, ← digitsValue_eq, digitsValue_toString]

theorem length_paddedTo {width n : Nat} (hpos : 0 < width) (h : n < 10 ^ width) :
    (paddedTo width n).length = width := by
  have hle := (length_toString_le_iff hpos).mpr h
  simp only [paddedTo, List.length_append, List.length_replicate]
  omega

theorem paddedTo_ne_nil (width n : Nat) : paddedTo width n ≠ [] :=
  List.append_ne_nil_of_right_ne_nil _ (toString_toList_ne_nil n)

/-! ## Reading digits -/

/-- What follows a run of digits does not go on with one. -/
def EndsDigits (rest : List Char) : Prop :=
  ∀ c ∈ rest.head?, c.isDigit = false

theorem takeWhile_digits {digits rest : List Char} (h : ∀ c ∈ digits, c.isDigit = true)
    (hrest : EndsDigits rest) : (digits ++ rest).takeWhile Char.isDigit = digits := by
  rw [List.takeWhile_append_of_pos h]
  cases rest with
  | nil => simp
  | cons c rest => simp [hrest c rfl]

theorem dropWhile_digits {digits rest : List Char} (h : ∀ c ∈ digits, c.isDigit = true)
    (hrest : EndsDigits rest) : (digits ++ rest).dropWhile Char.isDigit = rest := by
  rw [List.dropWhile_append_of_pos h]
  cases rest with
  | nil => rfl
  | cons c rest => simp [hrest c rfl]

/-- A run of digits is read whole when the width has room for it and either is full or is followed
by no digit. -/
theorem readDigits?_append {width : Nat} {digits rest : List Char} (hne : digits ≠ [])
    (h : ∀ c ∈ digits, c.isDigit = true) (hwidth : digits.length ≤ width)
    (hrest : digits.length = width ∨ EndsDigits rest) :
    readDigits? width (digits ++ rest) = some (digitsValue digits, rest) := by
  have htake : ((digits ++ rest).take width).takeWhile Char.isDigit = digits := by
    rw [List.take_append, List.take_of_length_le hwidth]
    refine takeWhile_digits h ?_
    rcases hrest with hfull | hrest
    · simp [EndsDigits, hfull]
    · intro c hc
      cases rest with
      | nil => simp at hc
      | cons first rest =>
          cases hroom : width - digits.length with
          | zero => simp [hroom] at hc
          | succ room =>
              rw [hroom] at hc
              exact hrest c hc
  unfold readDigits?
  simp only [htake, List.drop_left]
  rw [if_neg (by simpa using hne)]

theorem head?_digits {digits : List Char} (hne : digits ≠ [])
    (h : ∀ c ∈ digits, c.isDigit = true) (rest : List Char) :
    ∃ c, (digits ++ rest).head? = some c ∧ c.isDigit = true := by
  cases digits with
  | nil => exact absurd rfl hne
  | cons first digits => exact ⟨first, rfl, h first (List.mem_cons_self ..)⟩

theorem not_blank_digits {digits : List Char} (hne : digits ≠ [])
    (h : ∀ c ∈ digits, c.isDigit = true) (rest : List Char) :
    ∀ c ∈ (digits ++ rest).head?, Text.isBlank c = false := by
  intro c hc
  obtain ⟨first, hfirst, hdigit⟩ := head?_digits hne h rest
  rw [Option.mem_def, hfirst] at hc
  exact Option.some.inj hc ▸ isBlank_of_isDigit hdigit

theorem trimFront_digits {digits rest : List Char} (hne : digits ≠ [])
    (h : ∀ c ∈ digits, c.isDigit = true) :
    Text.trimFront (digits ++ rest) = digits ++ rest :=
  Text.trimFront_of_head (not_blank_digits hne h rest)

/-- A text that begins and ends with digits has nothing to trim. -/
theorem trimmed_digits {digits middle digits' : List Char} (hne : digits ≠ [])
    (h : ∀ c ∈ digits, c.isDigit = true) (hne' : digits' ≠ [])
    (h' : ∀ c ∈ digits', c.isDigit = true) :
    Text.trimmed (digits ++ middle ++ digits') = digits ++ middle ++ digits' := by
  refine Text.trimmed_of_ends ?_ ?_
  · rw [List.append_assoc]
    exact not_blank_digits hne h (middle ++ digits')
  · intro c hc
    rw [List.getLast?_append_of_ne_nil _ hne'] at hc
    exact isBlank_of_isDigit (h' c (List.mem_of_getLast? hc))

end Questionnaire
