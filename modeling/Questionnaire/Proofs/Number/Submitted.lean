import Questionnaire.Proofs.Number.Spelling

/-!
# Numbers in a form

The text of a stored number is submitted as it is, and stored as the number again
(`numberOfText_formText`): a whole number is written with digits and a sign and no more, and any
other number with a point or an exponent, so that it is not taken for a whole one.
-/

namespace Questionnaire

/-! ## Whole numbers -/

theorem exponentOf?_signed (negative : Bool) (n : Nat) :
    exponentOf? (signChars negative ++ (toString n).toList) =
      some (if negative then -(n : Int) else n) := by
  have hdigits := isDigit_of_mem_toString (n := n)
  have hne := toString_toList_ne_nil n
  have hhead := head_digits hne hdigits []
  rw [List.append_nil] at hhead
  have hall : (toString n).toList.all Char.isDigit = true := List.all_eq_true.mpr hdigits
  simp only [exponentOf?, splitSign_signChars hhead, hall, digitsValue_toString]
  simp

theorem int64OfText?_toString {i : Int} (h : i.natAbs < int64Limit) :
    int64OfText? (toString i) = some i := by
  have hread : exponentOf? (toString i).toList = some i := by
    rw [toList_toString_int, exponentOf?_signed]
    by_cases hneg : i < 0
    · simp only [hneg, decide_true, if_true]
      rw [Int.ofNat_natAbs_of_nonpos (by omega), Int.neg_neg]
    · simp only [hneg, decide_false, Bool.false_eq_true, if_false]
      rw [Int.natAbs_of_nonneg (by omega)]
  rw [int64OfText?, intOfText?, hread]
  refine Option.filter_eq_some_iff.mpr ⟨rfl, ?_⟩
  simp only [Bool.and_eq_true, decide_eq_true_eq]
  omega

theorem word32OfText?_toString {n : Nat} (h : n < word32Limit) :
    word32OfText? (toString n) = some n := by
  have hread := exponentOf?_signed false n
  simp only [signChars, Bool.false_eq_true, if_false, List.nil_append] at hread
  have hdigits := isDigit_of_mem_toString (n := n)
  unfold word32OfText?
  split
  · next heq =>
    rw [heq] at hdigits
    exact absurd (hdigits '-' (List.mem_cons_self ..)) (by decide)
  · rw [hread, Option.bind_some, if_pos (Int.ofNat_lt.mpr h), Int.toNat_natCast]

/-- A whole number is written with digits and a sign only. -/
theorem digit_or_sign_of_exponentOf? {cs : List Char} {i : Int} (h : exponentOf? cs = some i) :
    ∀ c ∈ cs, c.isDigit = true ∨ c = '-' ∨ c = '+' := by
  have hdigits : ∀ c ∈ (splitSign cs).2, c.isDigit = true := by
    simp only [exponentOf?] at h
    split at h
    · cases h
    · next hdigits => simp_all
  unfold splitSign at hdigits
  intro c hc
  split at hdigits
  · rcases List.mem_cons.mp hc with rfl | hc
    · exact .inr (.inl rfl)
    · exact .inl (hdigits c hc)
  · rcases List.mem_cons.mp hc with rfl | hc
    · exact .inr (.inr rfl)
    · exact .inl (hdigits c hc)
  · exact .inl (hdigits c hc)

/-! ## Numbers of any kind -/

/-- A number that is no integer is written with a point or an exponent. -/
theorem Binary64.exists_mark (x : Binary64) : '.' ∈ x.marked.toList ∨ 'e' ∈ x.marked.toList := by
  simp only [marked, Decimal.positional, Decimal.scientific]
  generalize shortestDecimal .toEven x.units = d
  split
  · left
    split
    · simp
    · split <;> simp
  · right
    simp

theorem int64OfText?_marked (x : Binary64) : int64OfText? x.marked = none := by
  rw [int64OfText?, Option.filter_eq_none_iff]
  intro i hi
  have hchars := digit_or_sign_of_exponentOf? hi
  rcases x.exists_mark with hmark | hmark
  · exact absurd (hchars _ hmark) (by decide)
  · exact absurd (hchars _ hmark) (by decide)

/-- The text by which a number is submitted is stored as the number. -/
theorem numberOfText_formText (x : Binary64) :
    numberOfText (Leaf.numberValue x).formText = Leaf.numberValue x := by
  by_cases h : Leaf.KeptWhole x
  · rw [Leaf.numberValue_of_keptWhole h]
    have htrim : Text.trim (toString x.truncate) = toString x.truncate :=
      trim_of_ofText? (Binary64.ofText?_truncate h.1)
    show numberOfText (toString x.truncate) = _
    rw [numberOfText, htrim, int64OfText?_toString h.2]
    show Json.ofInt x.truncate = _
    rw [← Leaf.numberValue_of_keptWhole h]
    exact (if_pos h).symm
  · rw [Leaf.numberValue_of_not_keptWhole h]
    have hread := x.ofText?_marked
    show numberOfText x.marked = _
    simp only [numberOfText, trim_of_ofText? hread, int64OfText?_marked, hread]

theorem Leaf.numberOf?_of_isBlankText {s : String} (h : Text.isBlankText s = true) :
    Leaf.numberOf? (.str s) = none := by
  have htrim : Text.trim s = "" := by
    rw [Text.trim, Text.trimmed_eq_nil_iff.mpr h]
  rw [Leaf.numberOf?, htrim]
  decide +kernel

end Questionnaire
