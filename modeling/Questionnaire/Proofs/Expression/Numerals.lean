import Questionnaire.Proofs.Expression.Lexing
import Questionnaire.Proofs.Number.Spelling

/-!
# Numbers of expressions, read back

What an expression writes for a finite number is a sign, digits, and a point with digits behind it
(`rounded_eq_signed`), which is one token. The token is the number, zero without its sign
(`lexes_rounded_iff`), except that a whole number beyond 64 bits is written as the nearest integer
of 64 bits (`Binary64.ofText?_rounded_of_not_writable`), and that an infinity is written as a word
(`Lexes.of_infinite`).
-/

namespace Questionnaire

theorem isNumberPart_of_isDigit {c : Char} (h : c.isDigit = true) : isNumberPart c = true := by
  simp [isNumberPart, h]

theorem startsWithDigit_of_digits {cs : List Char} (hne : cs ≠ [])
    (h : ∀ c ∈ cs, c.isDigit = true) (rest : List Char) : startsWithDigit (cs ++ rest) = true := by
  cases cs with
  | nil => exact absurd rfl hne
  | cons c cs => exact h c List.mem_cons_self

namespace Decimal

/-- A decimal written out in full without a point for a whole number. -/
theorem ofChars?_positional_pointless (d : Decimal) (negative : Bool) :
    ∃ digits exponent,
      DecimalNotation.ofChars? (signChars negative ++ (d.positional "").toList) =
        some ⟨negative, digits, exponent⟩ ∧ (Decimal.mk digits exponent).units = d.units := by
  by_cases hexponent : 0 ≤ d.exponent
  · have hall : ∀ c ∈ (toString d.digits).toList ++ List.replicate d.exponent.toNat '0',
        c.isDigit = true := by
      intro c hc
      rcases List.mem_append.mp hc with hc | hc
      · exact isDigit_of_mem_toString c hc
      · exact isDigit_of_mem_zeros c hc
    have hread := DecimalNotation.ofChars?_whole (List.append_ne_nil_of_left_ne_nil
      (toString_toList_ne_nil d.digits) _) hall endsDigits_nil nofun rfl negative
    rw [digitsValue_append_zeros, digitsValue_toString] at hread
    refine ⟨d.digits * tenPow d.exponent.toNat, 0, ?_, ?_⟩
    · simpa [positional, hexponent, toList_zeros] using hread
    · simp [units, quotient, hexponent, tenPow]
  · exact ⟨_, _, ofChars?_positional_of_neg hexponent _ negative, rfl⟩

/-- What is written of a decimal begins with a digit and has only digits and a point. -/
theorem positional_shape (d : Decimal) :
    startsWithDigit (d.positional "").toList = true ∧
      ∀ c ∈ (d.positional "").toList, isNumberPart c = true := by
  have hdigits := isDigit_of_mem_toString (n := d.digits)
  have hne := toString_toList_ne_nil d.digits
  have hpart : ∀ c ∈ (toString d.digits).toList, isNumberPart c = true :=
    fun c hc => isNumberPart_of_isDigit (hdigits c hc)
  have hzeros (count : Nat) : ∀ c ∈ List.replicate count '0', isNumberPart c = true :=
    fun c hc => isNumberPart_of_isDigit (isDigit_of_mem_zeros c hc)
  have hlength : (toString d.digits).length = (toString d.digits).toList.length :=
    String.length_toList.symm
  simp only [positional, hlength]
  split
  · simp only [String.toList_append, toList_zeros, String.toList_empty, List.append_nil]
    exact ⟨startsWithDigit_of_digits hne hdigits _, List.forall_mem_append.mpr ⟨hpart, hzeros _⟩⟩
  · generalize (-d.exponent).toNat = places
    split
    · next hless =>
      generalize hkept : (toString d.digits).toList.length - places = kept
      have hshown : (((toString d.digits).take kept).toString ++ "." ++
          ((toString d.digits).drop kept).toString).toList =
          (toString d.digits).toList.take kept ++ '.' :: (toString d.digits).toList.drop kept := by
        simp
      have htake : (toString d.digits).toList.take kept ≠ [] := by
        rw [Ne, List.take_eq_nil_iff]
        rintro (hzero | hnil)
        · omega
        · exact hne hnil
      rw [hshown]
      refine ⟨startsWithDigit_of_digits htake
        (fun c hc => hdigits c (List.mem_of_mem_take hc)) _, ?_⟩
      refine List.forall_mem_append.mpr ⟨fun c hc => hpart c (List.mem_of_mem_take hc), ?_⟩
      exact List.forall_mem_cons.mpr ⟨by decide, fun c hc => hpart c (List.mem_of_mem_drop hc)⟩
    · simp only [String.toList_append, toList_zeros]
      exact ⟨rfl, List.forall_mem_append.mpr
        ⟨List.forall_mem_append.mpr ⟨List.all_eq_true.mp (by decide), hzeros _⟩, hpart⟩⟩

end Decimal

namespace Binary64

/-- The text of a number other than zero in full is read as the number. -/
theorem ofText?_plain {x : Binary64} (h : 0 < x.units) : ofText? x.plain = some x := by
  obtain ⟨digits, exponent, hchars, hsame⟩ :=
    (shortestDecimal .up x.units).ofChars?_positional_pointless x.negative
  have hunits := hsame.trans (shortestDecimal_units .up x.representable)
  rw [ofText?, plain, String.toList_append, toList_signText, hchars, Option.bind_some,
    DecimalNotation.nearest_of_units hunits h]
  rfl

/-- An expression shows the number: a whole number is one of 64 bits, or just beyond them. -/
def Writable (x : Binary64) : Prop :=
  x.isWhole = true → x.truncate.natAbs ≤ int64Limit

instance (x : Binary64) : Decidable x.Writable :=
  inferInstanceAs (Decidable (_ → _))

/-- The number of the integer of 64 bits that is farthest out on one side, or just behind it. -/
def outermost (negative : Bool) : Binary64 :=
  ⟨negative, int64Limit * unitsPerOne, by decide +kernel⟩

/-- Beyond 64 bits the outermost integer is written, and rounded on reading. -/
theorem ofText?_clampInt64 {i : Int} (h : int64Limit ≤ i.natAbs) :
    ofText? (toString (clampInt64 i)) = some (outermost (decide (i < 0))) := by
  have hlow : ofText? (toString (-int64Limit : Int)) = some (outermost true) := by decide +kernel
  have hhigh : ofText? (toString (int64Limit - 1 : Int)) = some (outermost false) := by
    decide +kernel
  by_cases hneg : i < 0
  · have hclamp : clampInt64 i = -int64Limit := by
      simp only [clampInt64, int64Limit] at *
      omega
    rw [hclamp, hlow, decide_eq_true hneg]
  · have hclamp : clampInt64 i = int64Limit - 1 := by
      simp only [clampInt64, int64Limit] at *
      omega
    rw [hclamp, hhigh, decide_eq_false hneg]

theorem natAbs_toUnits (x : Binary64) : x.toUnits.natAbs = x.units := by
  unfold toUnits
  split <;> omega

/-- The text of a writable number is read as the number, zero without its sign. -/
theorem ofText?_rounded {x : Binary64} (h : x.Writable) :
    ofText? (Extended64.finite x).rounded = some x.unsignedZero := by
  simp only [Extended64.rounded]
  split
  · next hwhole =>
    have hle := h hwhole
    -- Just beyond 64 bits the outermost integer is written, and rounding leads back to the number.
    by_cases hlimit : x.truncate.natAbs = int64Limit
    · have hunits := units_eq_of_isWhole hwhole
      rw [hlimit] at hunits
      have hpos : 0 < x.units := hunits ▸ Nat.mul_pos (by decide) unitsPerOne_pos
      have hshape : outermost x.negative = x := by
        cases x
        simpa [outermost] using hunits
      rw [ofText?_clampInt64 (Nat.le_of_eq hlimit.symm), unsignedZero_of_pos hpos,
        decide_truncate_neg (by simp [hlimit]), hshape]
    · have hclamp : clampInt64 x.truncate = x.truncate := by
        simp only [clampInt64, int64Limit] at *
        omega
      rw [hclamp, ofText?_truncate hwhole]
  · next hfraction =>
    -- A number with a fraction is not zero, so its sign is kept.
    have hpos : 0 < x.units := by
      by_contra hzero
      have hunits : x.units = 0 := by omega
      simp [isWhole, hunits] at hfraction
    rw [ofText?_plain hpos, unsignedZero_of_pos hpos]

/-- The text of any other finite number is read as another number. -/
theorem ofText?_rounded_of_not_writable {x : Binary64} (h : ¬ x.Writable) :
    ∃ y, ofText? (Extended64.finite x).rounded = some y ∧ y.same x = false := by
  simp only [Writable, not_forall, Nat.not_le] at h
  obtain ⟨hwhole, hlarge⟩ := h
  simp only [Extended64.rounded, hwhole, if_true]
  refine ⟨_, ofText?_clampInt64 (Nat.le_of_lt hlarge), decide_eq_false fun hsame => ?_⟩
  -- Were the outermost integer the number, the number would lie within the range.
  have hunits := congrArg Int.natAbs hsame
  rw [natAbs_toUnits, natAbs_toUnits, ← units_eq_of_isWhole hwhole] at hunits
  exact Nat.ne_of_lt hlarge (Nat.eq_of_mul_eq_mul_right unitsPerOne_pos hunits)

/-- What is written of a finite number is a sign, and then a digit and what continues a number. -/
theorem rounded_eq_signed (x : Binary64) :
    ∃ negative body, (Extended64.finite x).rounded.toList = signChars negative ++ body ∧
      startsWithDigit body = true ∧ ∀ c ∈ body, isNumberPart c = true := by
  simp only [Extended64.rounded]
  split
  · refine ⟨_, _, toList_toString_int _, ?_, fun c hc => ?_⟩
    · have hstart := startsWithDigit_of_digits
        (toString_toList_ne_nil (clampInt64 x.truncate).natAbs) isDigit_of_mem_toString []
      rwa [List.append_nil] at hstart
    · exact isNumberPart_of_isDigit (isDigit_of_mem_toString c hc)
  · refine ⟨x.negative, _, ?_, (shortestDecimal .up x.units).positional_shape⟩
    rw [plain, String.toList_append, toList_signText]

end Binary64

section

variable {R : List Char} {ts : List Token}

/-- A number with a sign, in front of what does not continue it. -/
theorem lexes_signed_iff {body : List Char} (hstart : startsWithDigit body = true)
    (hbody : ∀ c ∈ body, isNumberPart c = true) (hR : ∀ c ∈ R.head?, isNumberPart c = false)
    (negative : Bool) :
    Lexes (signChars negative ++ body ++ R) ts ↔
      ∃ d ts', DecimalNotation.ofChars? (signChars negative ++ body) = some d ∧
        ts = .number d.nearest :: ts' ∧ Lexes R ts' := by
  cases negative with
  | true => exact lexes_number_iff (.inr ⟨.inr rfl, hstart⟩) hbody hR
  | false =>
      cases body with
      | nil => exact nomatch hstart
      | cons c body => exact lexes_number_iff (.inl hstart) (fun d hd => hbody d (.tail _ hd)) hR

theorem nearest_eq_of_ofText? {s : String} {x : Binary64} {d : DecimalNotation}
    (h : Binary64.ofText? s = some x) (hd : DecimalNotation.ofChars? s.toList = some d) :
    d.nearest = .finite x := by
  rw [Binary64.ofText?, hd, Option.bind_some] at h
  cases hnearest : d.nearest with
  | finite y =>
      rw [hnearest] at h
      exact congrArg _ (Option.some.inj h)
  | infinite _ =>
      rw [hnearest] at h
      cases h

/-- The token of a written number, in front of what does not continue it. -/
theorem lexes_rounded_iff {x y : Binary64}
    (h : Binary64.ofText? (Extended64.finite x).rounded = some y)
    (hR : ∀ c ∈ R.head?, isNumberPart c = false) :
    Lexes ((Extended64.finite x).rounded.toList ++ R) ts ↔
      ∃ ts', ts = .number (.finite y) :: ts' ∧ Lexes R ts' := by
  obtain ⟨negative, body, hshape, hstart, hbody⟩ := x.rounded_eq_signed
  obtain ⟨d, hd, -⟩ := Option.bind_eq_some_iff.mp h
  have hnearest := nearest_eq_of_ofText? h hd
  rw [hshape] at hd ⊢
  rw [lexes_signed_iff hstart hbody hR]
  simp [hd, hnearest]

/-- An infinity is written as a word, behind a sign that begins no token. -/
theorem Lexes.of_infinite {negative : Bool} (hR : ∀ c ∈ R.head?, isWordPart c = false)
    (h : Lexes ((Extended64.infinite negative).rounded.toList ++ R) ts) :
    ∃ ts', ts = .word "inf" :: ts' := by
  cases negative with
  | false =>
      obtain ⟨ts', hts, -⟩ :=
        (lexes_word_iff (c := 'i') (w := ['n', 'f']) (by decide)
          (List.all_eq_true.mp (by decide)) hR).mp h
      exact ⟨ts', hts⟩
  | true =>
      obtain ⟨s, ts', hs, -⟩ := (lexes_token_iff (c := '-') (by decide)).mp h
      rw [scan_of_not_sign (by decide)] at hs
      exact nomatch hs

end

end Questionnaire
