import Questionnaire.Component.Conversion
import Questionnaire.Proofs.Number.Nearest

/-!
# Numbers as text, read back

What is written of a number are a sign, digits with or without a point, and an exponent. Reading
takes them apart again (`DecimalNotation.ofChars?_whole`, `DecimalNotation.ofChars?_point`), to a
decimal that rounds to the number. So the text by which a stored number is submitted is converted to
the number (`Leaf.numberOf?_formText`).
-/

namespace Questionnaire

/-! ## Parts of a written number -/

/-- The sign in front of a negative number. -/
def signChars (negative : Bool) : List Char :=
  if negative then ['-'] else []

theorem splitSign_signChars {body : List Char} (h : ∀ c ∈ body.head?, c.isDigit = true)
    (negative : Bool) : splitSign (signChars negative ++ body) = (negative, body) := by
  cases negative with
  | true => rfl
  | false =>
      show splitSign body = (false, body)
      unfold splitSign
      split
      · next rest => exact absurd (h '-' rfl) (by decide)
      · next rest => exact absurd (h '+' rfl) (by decide)
      · rfl

theorem head_digits {digits : List Char} (hne : digits ≠ []) (h : ∀ c ∈ digits, c.isDigit = true)
    (rest : List Char) : ∀ c ∈ (digits ++ rest).head?, c.isDigit = true := by
  intro c hc
  obtain ⟨first, hfirst, hdigit⟩ := head?_digits hne h rest
  rw [Option.mem_def, hfirst] at hc
  exact Option.some.inj hc ▸ hdigit

theorem endsDigits_nil : EndsDigits [] := nofun

namespace DecimalNotation

variable {whole fraction rest : List Char} {exponent : Int}

/-- A number without a point is read as its digits, moved by the exponent. -/
theorem ofChars?_whole (hne : whole ≠ []) (hwhole : ∀ c ∈ whole, c.isDigit = true)
    (hrest : EndsDigits rest) (hpoint : ∀ tail, rest ≠ '.' :: tail)
    (hexponent : exponentPart? rest = some exponent) (negative : Bool) :
    ofChars? (signChars negative ++ (whole ++ rest)) =
      some ⟨negative, digitsValue whole, exponent⟩ := by
  unfold ofChars?
  rw [splitSign_signChars (head_digits hne hwhole rest)]
  simp only [takeWhile_digits hwhole hrest, dropWhile_digits hwhole hrest]
  simp [hne, hexponent]

/-- A number with a point is read as all its digits, moved back by those after the point. -/
theorem ofChars?_point (hne : whole ≠ []) (hwhole : ∀ c ∈ whole, c.isDigit = true)
    (hfraction : ∀ c ∈ fraction, c.isDigit = true) (hrest : EndsDigits rest)
    (hexponent : exponentPart? rest = some exponent) (negative : Bool) :
    ofChars? (signChars negative ++ (whole ++ '.' :: (fraction ++ rest))) =
      some ⟨negative, digitsValue (whole ++ fraction), exponent - fraction.length⟩ := by
  have hends : EndsDigits ('.' :: (fraction ++ rest)) := by
    intro c hc
    obtain rfl : '.' = c := Option.some.inj hc
    rfl
  unfold ofChars?
  rw [splitSign_signChars (head_digits hne hwhole _)]
  simp only [takeWhile_digits hwhole hends, dropWhile_digits hwhole hends,
    takeWhile_digits hfraction hrest, dropWhile_digits hfraction hrest]
  simp [hne, hexponent]

end DecimalNotation

theorem exponentPart?_written (exponent : Int) :
    exponentPart? ('e' :: (if 0 ≤ exponent then '+' else '-') ::
      (toString exponent.natAbs).toList) = some exponent := by
  have hdigits := isDigit_of_mem_toString (n := exponent.natAbs)
  have hall : (toString exponent.natAbs).toList.all Char.isDigit = true :=
    List.all_eq_true.mpr hdigits
  simp only [exponentPart?, true_or, if_true, exponentOf?]
  by_cases hpos : 0 ≤ exponent
  · rw [if_pos hpos]
    simp only [splitSign, hall, digitsValue_toString]
    simp [Int.natAbs_of_nonneg hpos]
  · rw [if_neg hpos]
    simp only [splitSign, hall, digitsValue_toString]
    have hvalue : -((exponent.natAbs : Nat) : Int) = exponent := by omega
    rw [hvalue]
    simp

/-! ## No blanks -/

theorem not_blank_splitSign {cs : List Char} (h : ∀ c ∈ (splitSign cs).2, Text.isBlank c = false) :
    ∀ c ∈ cs, Text.isBlank c = false := by
  unfold splitSign at h
  split at h
  · exact List.forall_mem_cons.mpr ⟨by decide, h⟩
  · exact List.forall_mem_cons.mpr ⟨by decide, h⟩
  · exact h

theorem not_blank_of_exponentOf? {cs : List Char} {exponent : Int}
    (h : exponentOf? cs = some exponent) : ∀ c ∈ cs, Text.isBlank c = false := by
  refine not_blank_splitSign fun c hc => ?_
  simp only [exponentOf?] at h
  split at h
  · exact nomatch h
  · next hdigits =>
    simp only [Bool.or_eq_true, Bool.not_eq_true', not_or, Bool.not_eq_false,
      List.all_eq_true] at hdigits
    exact isBlank_of_isDigit (hdigits.2 c hc)

theorem not_blank_of_exponentPart? {cs : List Char} {exponent : Int}
    (h : exponentPart? cs = some exponent) : ∀ c ∈ cs, Text.isBlank c = false := by
  unfold exponentPart? at h
  split at h
  · exact nofun
  · split at h
    · next hletter =>
      refine List.forall_mem_cons.mpr ⟨?_, not_blank_of_exponentOf? h⟩
      rcases hletter with rfl | rfl <;> decide
    · exact nomatch h

theorem not_blank_of_dropWhile {cs : List Char}
    (h : ∀ c ∈ cs.dropWhile Char.isDigit, Text.isBlank c = false) :
    ∀ c ∈ cs, Text.isBlank c = false := by
  intro c hc
  rw [← List.takeWhile_append_dropWhile (p := Char.isDigit) (l := cs)] at hc
  rcases List.mem_append.mp hc with hc | hc
  · exact isBlank_of_isDigit (List.mem_takeWhile_imp hc)
  · exact h c hc

/-- A number is written without blanks. -/
theorem DecimalNotation.not_blank_of_ofChars? {cs : List Char} {d : DecimalNotation}
    (h : ofChars? cs = some d) : ∀ c ∈ cs, Text.isBlank c = false := by
  refine not_blank_splitSign (not_blank_of_dropWhile ?_)
  simp only [ofChars?] at h
  have hpart {empty : Bool} {tail : List Char} {make : Int → DecimalNotation}
      (hread : (if empty = true then none else (exponentPart? tail).map make) = some d) :
      ∀ c ∈ tail, Text.isBlank c = false := by
    cases empty with
    | true => exact nomatch hread
    | false =>
        obtain ⟨exponent, hexponent, -⟩ := Option.map_eq_some_iff.mp hread
        exact not_blank_of_exponentPart? hexponent
  split at h
  · next rest hpoint =>
    rw [hpoint]
    exact List.forall_mem_cons.mpr ⟨by decide, not_blank_of_dropWhile (hpart h)⟩
  · exact hpart h

/-- The text of a number has nothing to trim. -/
theorem trim_of_ofText? {s : String} {x : Binary64} (h : Binary64.ofText? s = some x) :
    Text.trim s = s := by
  obtain ⟨d, hd, -⟩ := Option.bind_eq_some_iff.mp h
  have hblank := DecimalNotation.not_blank_of_ofChars? hd
  rw [Text.trim, Text.trimmed_of_ends, String.ofList_toList]
  · exact fun c hc => hblank c (List.mem_of_head? hc)
  · exact fun c hc => hblank c (List.mem_of_getLast? hc)

/-! ## Zeros around digits -/

theorem digitsValue_append_zeros (digits : List Char) (count : Nat) :
    digitsValue (digits ++ List.replicate count '0') = digitsValue digits * tenPow count := by
  rw [digitsValue_eq, Nat.ofDigitChars_append, Nat.ofDigitChars_replicate_zero, Nat.mul_comm]
  rfl

theorem digitsValue_zeros_append (digits : List Char) (count : Nat) :
    digitsValue (List.replicate count '0' ++ digits) = digitsValue digits := by
  rw [digitsValue_eq, Nat.ofDigitChars_append, Nat.ofDigitChars_replicate_zero, Nat.mul_zero]
  rfl

theorem isDigit_of_mem_zeros {count : Nat} : ∀ c ∈ List.replicate count '0', c.isDigit = true := by
  intro c hc
  rw [List.eq_of_mem_replicate hc]
  rfl

theorem toList_zeros (count : Nat) : (zeros count).toList = List.replicate count '0' := by
  rw [zeros, String.toList_ofList]

/-! ## Decimals -/

section

variable {cs rest : List Char} {exponent : Int}

/-- Digits parted by a point, with an exponent. -/
theorem ofChars?_parted (hcs : ∀ c ∈ cs, c.isDigit = true) {places : Nat}
    (hless : places < cs.length) (hrest : EndsDigits rest)
    (hexponent : exponentPart? rest = some exponent) (negative : Bool) :
    DecimalNotation.ofChars? (signChars negative ++
        (cs.take (cs.length - places) ++ '.' :: (cs.drop (cs.length - places) ++ rest))) =
      some ⟨negative, digitsValue cs, exponent - places⟩ := by
  have hne : cs.take (cs.length - places) ≠ [] := by
    rw [Ne, List.take_eq_nil_iff]
    rintro (hzero | hnil)
    · omega
    · simp [hnil] at hless
  rw [DecimalNotation.ofChars?_point hne (fun c hc => hcs c (List.mem_of_mem_take hc))
    (fun c hc => hcs c (List.mem_of_mem_drop hc)) hrest hexponent]
  rw [List.take_append_drop, List.length_drop, Nat.sub_sub_self (Nat.le_of_lt hless)]

/-- Digits with zeros before and behind the point. -/
theorem ofChars?_whole_zeros (hne : cs ≠ []) (hcs : ∀ c ∈ cs, c.isDigit = true) (count : Nat)
    (negative : Bool) :
    DecimalNotation.ofChars?
        (signChars negative ++ (cs ++ List.replicate count '0' ++ ['.', '0'])) =
      some ⟨negative, digitsValue cs * tenPow count * 10, -1⟩ := by
  have hall : ∀ c ∈ cs ++ List.replicate count '0', c.isDigit = true := by
    intro c hc
    rcases List.mem_append.mp hc with hc | hc
    · exact hcs c hc
    · exact isDigit_of_mem_zeros c hc
  have hzero : ∀ c ∈ ['0'], c.isDigit = true := List.all_eq_true.mp (by decide)
  have hread := DecimalNotation.ofChars?_point (List.append_ne_nil_of_left_ne_nil hne _) hall hzero
    endsDigits_nil rfl negative
  have htail := digitsValue_append_zeros (cs ++ List.replicate count '0') 1
  rw [digitsValue_append_zeros cs] at htail
  refine hread.trans ?_
  rw [show digitsValue (cs ++ List.replicate count '0' ++ ['0']) = _ from htail]
  rfl

/-- Digits with zeros between the point and them. -/
theorem ofChars?_zeros_below (hcs : ∀ c ∈ cs, c.isDigit = true) (count : Nat) (negative : Bool) :
    DecimalNotation.ofChars?
        (signChars negative ++ ('0' :: '.' :: (List.replicate count '0' ++ cs))) =
      some ⟨negative, digitsValue cs, -((count + cs.length : Nat) : Int)⟩ := by
  have hall : ∀ c ∈ List.replicate count '0' ++ cs, c.isDigit = true := by
    intro c hc
    rcases List.mem_append.mp hc with hc | hc
    · exact isDigit_of_mem_zeros c hc
    · exact hcs c hc
  have hread := DecimalNotation.ofChars?_point (List.cons_ne_nil '0' [])
    (List.all_eq_true.mp (by decide)) hall endsDigits_nil rfl negative
  rw [List.append_nil] at hread
  refine hread.trans ?_
  have hvalue : digitsValue (['0'] ++ (List.replicate count '0' ++ cs)) = digitsValue cs := by
    rw [← List.append_assoc]
    exact digitsValue_zeros_append cs (count + 1)
  rw [hvalue, List.length_append, List.length_replicate, Int.zero_sub]

end

namespace Decimal

/-- Moving the point by a digit leaves the value. -/
theorem units_zero_append {digits : Nat} {exponent : Int} (h : 0 ≤ exponent) :
    (Decimal.mk (digits * tenPow exponent.toNat * 10) (-1)).units =
      (Decimal.mk digits exponent).units := by
  have hquotient : (Decimal.mk (digits * tenPow exponent.toNat * 10) (-1)).quotient =
      (digits * tenPow exponent.toNat * 10 * unitsPerOne, tenPow 1) := quotient_neg _ Nat.one_pos
  rw [units, units, hquotient, quotient, if_pos h]
  generalize unitsPerOne = scale
  show nearestUnits (digits * tenPow exponent.toNat * 10 * scale) (1 * 10) =
    nearestUnits (digits * tenPow exponent.toNat * scale) 1
  rw [Nat.mul_right_comm _ 10 scale]
  exact nearestUnits_mul_mul _ _ (by decide)

/-- A decimal with places behind the point is read as itself. -/
theorem ofChars?_positional_of_neg {d : Decimal} (h : ¬ 0 ≤ d.exponent) (pointless : String)
    (negative : Bool) :
    DecimalNotation.ofChars? (signChars negative ++ (d.positional pointless).toList) =
      some ⟨negative, d.digits, d.exponent⟩ := by
  have hdigits := isDigit_of_mem_toString (n := d.digits)
  have hvalue := digitsValue_toString d.digits
  have hlength : (toString d.digits).length = (toString d.digits).toList.length :=
    String.length_toList.symm
  have hback : d.exponent = -((-d.exponent).toNat : Int) := by omega
  simp only [positional, hlength, if_neg h]
  generalize (-d.exponent).toNat = places at hback ⊢
  split
  · next hless =>
    have hread := ofChars?_parted hdigits hless endsDigits_nil rfl negative
    rw [hvalue, Int.zero_sub, ← hback] at hread
    simpa using hread
  · next hless =>
    have hread := ofChars?_zeros_below hdigits (places - (toString d.digits).toList.length) negative
    rw [hvalue, Nat.sub_add_cancel (Nat.le_of_not_lt hless), ← hback] at hread
    simpa [toList_zeros] using hread

/-- A decimal written out in full is read as one that rounds to the same. -/
theorem ofChars?_positional (d : Decimal) (negative : Bool) :
    ∃ digits exponent,
      DecimalNotation.ofChars? (signChars negative ++ (d.positional ".0").toList) =
        some ⟨negative, digits, exponent⟩ ∧ (Decimal.mk digits exponent).units = d.units := by
  by_cases hexponent : 0 ≤ d.exponent
  · have hread := ofChars?_whole_zeros (toString_toList_ne_nil d.digits) isDigit_of_mem_toString
      d.exponent.toNat negative
    rw [digitsValue_toString d.digits] at hread
    refine ⟨d.digits * tenPow d.exponent.toNat * 10, -1, ?_, units_zero_append hexponent⟩
    simpa [positional, hexponent, toList_zeros] using hread
  · exact ⟨_, _, ofChars?_positional_of_neg hexponent _ negative, rfl⟩

/-- A decimal with an exponent is read as itself. -/
theorem ofChars?_scientific (d : Decimal) (negative : Bool) :
    DecimalNotation.ofChars? (signChars negative ++ d.scientific.toList) =
      some ⟨negative, d.digits, d.exponent⟩ := by
  have hdigits := isDigit_of_mem_toString (n := d.digits)
  have hvalue := digitsValue_toString d.digits
  have hne := toString_toList_ne_nil d.digits
  have hlength : (toString d.digits).length = (toString d.digits).toList.length :=
    String.length_toList.symm
  simp only [scientific, hlength]
  generalize hexponent : d.exponent + ((toString d.digits).toList.length : Int) - 1 = exponent
  have hpart := exponentPart?_written exponent
  have hends : EndsDigits ('e' :: (if 0 ≤ exponent then '+' else '-') ::
      (toString exponent.natAbs).toList) := by
    intro c hc
    obtain rfl : 'e' = c := Option.some.inj hc
    rfl
  have hsign : (if 0 ≤ exponent then "+" else "-").toList =
      [if 0 ≤ exponent then '+' else '-'] := by
    split <;> rfl
  split
  · next hone =>
    have hread := DecimalNotation.ofChars?_whole hne hdigits hends nofun hpart negative
    have hback : exponent = d.exponent := by omega
    rw [hvalue] at hread
    rw [String.toList_append, String.toList_append, String.toList_append, hsign]
    simpa [hback] using hread
  · next hmany =>
    have hpos := List.length_pos_iff.mpr hne
    have hless : (toString d.digits).toList.length - 1 < (toString d.digits).toList.length := by
      omega
    have hread := ofChars?_parted hdigits hless hends hpart negative
    have htake : (toString d.digits).toList.length - ((toString d.digits).toList.length - 1) = 1 := by
      omega
    have hback : exponent - ((toString d.digits).toList.length - 1 : Nat) = d.exponent := by omega
    rw [hvalue, htake, hback] at hread
    rw [String.toList_append, String.toList_append, String.toList_append, hsign]
    simpa using hread

end Decimal

/-! ## Numbers -/

namespace Binary64

theorem toList_signText (x : Binary64) : x.signText.toList = signChars x.negative := by
  rw [signText, signChars]
  split <;> rfl

/-- A number without units is one of the two zeros. -/
theorem eq_zero_of_units {x : Binary64} (h : x.units = 0) : x = .zero x.negative := by
  obtain ⟨negative, units, representable⟩ := x
  subst h
  rfl

theorem ofText?_marked_zero : ∀ negative, ofText? (zero negative).marked = some (zero negative) := by
  decide +kernel

/-- The text of a number is read as the number. -/
theorem ofText?_marked (x : Binary64) : ofText? x.marked = some x := by
  obtain hzero | hpos := Nat.eq_zero_or_pos x.units
  · rw [eq_zero_of_units hzero]
    exact ofText?_marked_zero x.negative
  have hunits := shortestDecimal_units .toEven x.representable
  have hread : ∃ digits exponent, DecimalNotation.ofChars? x.marked.toList =
      some ⟨x.negative, digits, exponent⟩ ∧ (Decimal.mk digits exponent).units = x.units := by
    simp only [marked, String.toList_append, toList_signText]
    split
    · obtain ⟨digits, exponent, hchars, hsame⟩ :=
        (shortestDecimal .toEven x.units).ofChars?_positional x.negative
      exact ⟨digits, exponent, hchars, hsame.trans hunits⟩
    · exact ⟨_, _, Decimal.ofChars?_scientific _ _, hunits⟩
  obtain ⟨digits, exponent, hchars, hsame⟩ := hread
  rw [ofText?, hchars, Option.bind_some, DecimalNotation.nearest_of_units hsame hpos]
  rfl

end Binary64

theorem toList_toString_int (i : Int) :
    (toString i).toList = signChars (decide (i < 0)) ++ (toString i.natAbs).toList := by
  cases i with
  | ofNat n => rfl
  | negSucc n =>
      show ("-" ++ toString (n + 1)).toList = _
      rw [String.toList_append]
      simp [signChars, Int.negSucc_lt_zero]

namespace Binary64

theorem unsignedZero_sameValue (x : Binary64) : x.unsignedZero.SameValue x := by
  refine ⟨?_, toUnits_unsignedZero x⟩
  unfold unsignedZero
  split
  · next h => simp [zero, h]
  · rfl

theorem unsignedZero_of_pos {x : Binary64} (h : 0 < x.units) : x.unsignedZero = x :=
  if_neg (Nat.ne_of_gt h)

theorem decide_truncate_neg {x : Binary64} (h : x.truncate.natAbs ≠ 0) :
    decide (x.truncate < 0) = x.negative := by
  rw [natAbs_truncate] at h
  rw [truncate_def]
  generalize x.units / unitsPerOne = whole at h ⊢
  cases x.negative with
  | false => simp
  | true =>
      simp only [if_true, decide_eq_true_eq]
      omega

/-- The text of the integer that a whole number is denotes the number, zero without its sign. -/
theorem ofText?_truncate {x : Binary64} (h : x.isWhole = true) :
    ofText? (toString x.truncate) = some x.unsignedZero := by
  have hunits := units_eq_of_isWhole h
  have hread := DecimalNotation.ofChars?_whole (toString_toList_ne_nil x.truncate.natAbs)
    isDigit_of_mem_toString endsDigits_nil nofun rfl (decide (x.truncate < 0))
  rw [List.append_nil, ← toList_toString_int, digitsValue_toString] at hread
  rw [ofText?, hread, Option.bind_some]
  by_cases hzero : x.truncate.natAbs = 0
  · rw [hzero, Nat.zero_mul] at hunits
    have hsign : decide (x.truncate < 0) = false := by simp [Int.natAbs_eq_zero.mp hzero]
    rw [unsignedZero, if_pos hunits.symm]
    simp only [DecimalNotation.nearest, hzero, hsign, true_or, if_true]
    rfl
  · have hpos : 0 < x.units := by
      rw [← hunits]
      exact Nat.mul_pos (Nat.pos_of_ne_zero hzero) unitsPerOne_pos
    have hsame : (Decimal.mk x.truncate.natAbs 0).units = x.units := by
      rw [Decimal.units, Decimal.quotient, if_pos (Int.le_refl 0)]
      show nearestUnits (x.truncate.natAbs * 1 * unitsPerOne) 1 = x.units
      rw [Nat.mul_one, hunits, nearestUnits_units]
    rw [decide_truncate_neg hzero, DecimalNotation.nearest_of_units hsame hpos,
      unsignedZero_of_pos hpos]
    rfl

/-- Only zero, which is whole, has no units. -/
theorem units_pos_of_not_keptWhole {x : Binary64} (h : ¬ Leaf.KeptWhole x) : 0 < x.units := by
  by_contra hzero
  have hunits : x.units = 0 := by omega
  refine h ⟨by simp [isWhole, hunits], ?_⟩
  rw [natAbs_truncate, hunits, Nat.zero_div]
  decide

end Binary64

namespace Leaf

/-- The text by which a stored number is submitted is converted to the number. -/
theorem numberOf?_formText (x : Binary64) :
    ∃ y, numberOf? (.str (numberValue x).formText) = some y ∧ numberValue y = numberValue x ∧
      ∀ c, numberFaults c y = numberFaults c x := by
  by_cases h : KeptWhole x
  · have hy := Binary64.ofText?_truncate h.1
    have hsame := x.unsignedZero_sameValue
    have hvalue := numberValue_eq ⟨hsame.units_eq.symm, hsame.toUnits_eq.symm⟩ h
    refine ⟨x.unsignedZero, ?_, hvalue, numberFaults_eq hsame⟩
    rw [numberValue_of_keptWhole h]
    show Binary64.ofText? (Text.trim (toString x.truncate)) = some x.unsignedZero
    rw [trim_of_ofText? hy, hy]
  · refine ⟨x, ?_, rfl, fun _ => rfl⟩
    rw [numberValue_of_not_keptWhole h]
    show Binary64.ofText? (Text.trim x.marked) = some x
    have hread := x.ofText?_marked
    rw [trim_of_ofText? hread, hread]

end Leaf

end Questionnaire
