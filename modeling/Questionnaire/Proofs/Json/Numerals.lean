import Questionnaire.Json.Parser
import Questionnaire.Json.Printer
import Questionnaire.Proofs.Number.Spelling

/-!
# Numbers in JSON text, read back

The reader takes a number apart into its digits, those before the point, those after it and those of
the exponent (`Numeral.numeral?_body`). A numeral denotes the number nearest to what it writes
(`Numeral.denoted?`); the reader of JSON text rounds twice, and may miss it. Every number is written
by a numeral that denotes it (`Number.exists_numeral`).
-/

namespace Questionnaire

/-! ## Runs of digits -/

/-- A run of digits that is not empty. -/
structure IsRun (digits : List Char) : Prop where
  ne_nil : digits ≠ []
  isDigit : ∀ c ∈ digits, c.isDigit = true

theorem isRun_toString (n : Nat) : IsRun (toString n).toList :=
  ⟨toString_toList_ne_nil n, isDigit_of_mem_toString⟩

namespace IsRun

variable {digits : List Char}

theorem append_zeros (h : IsRun digits) (count : Nat) :
    IsRun (digits ++ List.replicate count '0') :=
  ⟨List.append_ne_nil_of_left_ne_nil h.ne_nil _,
    fun c hc => (List.mem_append.mp hc).elim (h.isDigit c) (isDigit_of_mem_zeros c)⟩

theorem zeros_append (h : IsRun digits) (count : Nat) :
    IsRun (List.replicate count '0' ++ digits) :=
  ⟨List.append_ne_nil_of_right_ne_nil _ h.ne_nil,
    fun c hc => (List.mem_append.mp hc).elim (isDigit_of_mem_zeros c) (h.isDigit c)⟩

theorem take (h : IsRun digits) {count : Nat} (hpos : 0 < count) : IsRun (digits.take count) := by
  refine ⟨?_, fun c hc => h.isDigit c (List.mem_of_mem_take hc)⟩
  rw [Ne, List.take_eq_nil_iff]
  exact not_or.mpr ⟨Nat.ne_of_gt hpos, h.ne_nil⟩

theorem drop (h : IsRun digits) {count : Nat} (hless : count < digits.length) :
    IsRun (digits.drop count) := by
  refine ⟨?_, fun c hc => h.isDigit c (List.mem_of_mem_drop hc)⟩
  rw [Ne, List.drop_eq_nil_iff]
  exact Nat.not_le.mpr hless

end IsRun

/-- Only zero is written with a zero in front. -/
theorem head?_toString_ne_zero {n : Nat} (h : 0 < n) : (toString n).toList.head? ≠ some '0' := by
  rw [toList_toString]
  induction n using Nat.strongRecOn with
  | ind n ih =>
    by_cases hless : n < 10
    · rw [Nat.toDigits_of_lt_base hless, List.head?_cons]
      have hdigits : ∀ n < 10, 0 < n → some n.digitChar ≠ some '0' := by decide
      exact hdigits n hless h
    · rw [Nat.toDigits_of_base_le (by decide) (Nat.not_lt.mp hless),
        List.head?_append_of_ne_nil _ Nat.toDigits_ne_nil]
      exact ih (n / 10) (by omega) (by omega)

namespace Numeral

/-! ## Writing a numeral -/

/-- The digits after the point, with the point. -/
def pointChars : Option (List Char) → List Char
  | some digits => '.' :: digits
  | none => []

/-- The exponent, with its letter and sign. -/
def powerChars : Option (Bool × List Char) → List Char
  | some (negative, digits) => 'e' :: (if negative then '-' else '+') :: digits
  | none => []

/-- What is written of a numeral behind its sign. -/
def body (n : Numeral) : List Char :=
  n.whole ++ (pointChars n.fraction ++ powerChars n.exponent)

/-- A numeral in the form that JSON asks for. -/
structure Proper (n : Numeral) : Prop where
  whole : IsRun n.whole
  /-- A zero in front stands alone. -/
  leading : n.whole.head? = some '0' → n.whole.length = 1
  fraction : ∀ digits, n.fraction = some digits → IsRun digits
  exponent : ∀ power, n.exponent = some power → IsRun power.2

/-- What follows a numeral and does not go on with it. -/
def Ends (rest : List Char) : Prop :=
  ∀ c ∈ rest.head?, c.isDigit = false ∧ c ≠ '.' ∧ c ≠ 'e' ∧ c ≠ 'E'

theorem Ends.endsDigits {rest : List Char} (h : Ends rest) : EndsDigits rest :=
  fun c hc => (h c hc).1

theorem endsDigits_powerChars (exponent : Option (Bool × List Char)) {rest : List Char}
    (h : Ends rest) : EndsDigits (powerChars exponent ++ rest) := by
  cases exponent with
  | none => exact h.endsDigits
  | some power =>
      intro c hc
      obtain rfl : 'e' = c := Option.some.inj hc
      rfl

theorem endsDigits_pointChars (fraction : Option (List Char)) (exponent : Option (Bool × List Char))
    {rest : List Char} (h : Ends rest) :
    EndsDigits (pointChars fraction ++ (powerChars exponent ++ rest)) := by
  cases fraction with
  | none => exact endsDigits_powerChars exponent h
  | some digits =>
      intro c hc
      obtain rfl : '.' = c := Option.some.inj hc
      rfl

/-! ## Reading it -/

section

open Json

theorem powerPart?_powerChars {exponent : Option (Bool × List Char)}
    (hexponent : ∀ power, exponent = some power → IsRun power.2) {rest : List Char}
    (h : Ends rest) : powerPart? (powerChars exponent ++ rest) = some (exponent, rest) := by
  cases exponent with
  | none =>
      cases rest with
      | nil => rfl
      | cons c rest =>
          obtain ⟨-, -, hsmall, hcapital⟩ := h c rfl
          show powerPart? (c :: rest) = _
          rw [powerPart?, if_neg (not_or.mpr ⟨hsmall, hcapital⟩)]
  | some power =>
      obtain ⟨negative, digits⟩ := power
      obtain ⟨hne, hdigits⟩ := hexponent _ rfl
      have hsign : splitSign ((if negative then '-' else '+') :: (digits ++ rest)) =
          (negative, digits ++ rest) := by
        cases negative <;> rfl
      show powerPart? ('e' :: (if negative then '-' else '+') :: (digits ++ rest)) = _
      rw [powerPart?, if_pos (.inl rfl), hsign]
      simp only [takeWhile_digits hdigits h.endsDigits, dropWhile_digits hdigits h.endsDigits]
      rw [if_neg (by simpa using hne)]

theorem fractionPart?_pointChars {fraction : Option (List Char)}
    (hfraction : ∀ digits, fraction = some digits → IsRun digits)
    (exponent : Option (Bool × List Char)) {rest : List Char} (h : Ends rest) :
    fractionPart? (pointChars fraction ++ (powerChars exponent ++ rest)) =
      some (fraction, powerChars exponent ++ rest) := by
  have hends := endsDigits_powerChars exponent h
  cases fraction with
  | none =>
      have hpoint : ∀ tail, powerChars exponent ++ rest ≠ '.' :: tail := by
        intro tail htail
        cases exponent with
        | none => exact (h '.' (congrArg List.head? htail)).2.1 rfl
        | some power => exact absurd (List.cons.inj htail).1 (by decide)
      show fractionPart? (powerChars exponent ++ rest) = _
      unfold fractionPart?
      split
      · next tail htail => exact absurd htail (hpoint tail)
      · rfl
  | some digits =>
      obtain ⟨hne, hdigits⟩ := hfraction _ rfl
      show fractionPart? ('.' :: (digits ++ (powerChars exponent ++ rest))) = _
      rw [fractionPart?, takeWhile_digits hdigits hends, dropWhile_digits hdigits hends,
        if_neg (by simpa using hne)]

/-- The reader takes from a text the numeral that it begins with. -/
theorem numeral?_body {n : Numeral} (h : n.Proper) {rest : List Char} (hrest : Ends rest) :
    numeral? n.negative (n.body ++ rest) = some (n, rest) := by
  have hends := endsDigits_pointChars n.fraction n.exponent hrest
  have hleading : ¬ ((n.whole.isEmpty ||
      (n.whole.head? == some '0' && decide (n.whole.length ≠ 1))) = true) := by
    simp only [Bool.or_eq_true, List.isEmpty_iff, Bool.and_eq_true, beq_iff_eq, decide_eq_true_eq]
    rintro (hempty | ⟨hzero, hlong⟩)
    · exact h.whole.ne_nil hempty
    · exact hlong (h.leading hzero)
  rw [body, List.append_assoc, List.append_assoc, numeral?]
  simp only [takeWhile_digits h.whole.isDigit hends, dropWhile_digits h.whole.isDigit hends]
  rw [if_neg hleading]
  simp only [fractionPart?_pointChars h.fraction n.exponent hrest, Option.bind_eq_bind,
    Option.bind_some, powerPart?_powerChars h.exponent hrest]
  rfl

end

/-! ## What it denotes -/

/-- The decimal that a numeral writes. -/
def decimal (n : Numeral) : DecimalNotation :=
  ⟨n.negative, digitsValue (n.whole ++ n.fraction.getD []),
    n.exponentValue - (n.fraction.getD []).length⟩

/-- The number that a numeral denotes, unless it is out of range: the integer, if it is written as
one that 64 bits hold, and otherwise the floating-point number nearest to what is written. -/
def denoted? (n : Numeral) : Option Number :=
  match n.int? with
  | some number => some number
  | none => (n.decimal.nearest.finite?).map .float

theorem exponentPart?_powerChars {n : Numeral} (h : n.Proper) :
    exponentPart? (powerChars n.exponent) = some n.exponentValue := by
  cases hexponent : n.exponent with
  | none => rw [exponentValue, hexponent]; rfl
  | some power =>
      obtain ⟨negative, digits⟩ := power
      obtain ⟨hne, hdigits⟩ := h.exponent _ hexponent
      have hrun : (digits.isEmpty || !digits.all Char.isDigit) = false := by
        rw [List.all_eq_true.mpr hdigits]
        simpa using hne
      rw [exponentValue, hexponent]
      cases negative <;>
        simp [powerChars, exponentPart?, exponentOf?, splitSign, hrun]

/-- A numeral is read as the decimal that it writes. -/
theorem ofChars?_body {n : Numeral} (h : n.Proper) :
    DecimalNotation.ofChars? (signChars n.negative ++ n.body) = some n.decimal := by
  have hends : EndsDigits (powerChars n.exponent) := by
    have hends := @endsDigits_powerChars n.exponent [] nofun
    rwa [List.append_nil] at hends
  have hexponent := exponentPart?_powerChars h
  rw [body, decimal]
  cases hfraction : n.fraction with
  | none =>
      have hpoint : ∀ tail, powerChars n.exponent ≠ '.' :: tail := by
        intro tail htail
        cases hpower : n.exponent with
        | none => rw [hpower] at htail; cases htail
        | some power => rw [hpower] at htail; exact absurd (List.cons.inj htail).1 (by decide)
      have hread := DecimalNotation.ofChars?_whole h.whole.ne_nil h.whole.isDigit hends hpoint
        hexponent n.negative
      simpa [pointChars] using hread
  | some digits =>
      exact DecimalNotation.ofChars?_point h.whole.ne_nil h.whole.isDigit
        (h.fraction _ hfraction).isDigit hends hexponent n.negative

end Numeral

/-! ## Numbers -/

section

open Numeral

/-- A decimal written out in full has a point. -/
theorem Decimal.exists_numeral_positional {d : Decimal} (h : 0 < d.digits ∨ d.exponent = 0)
    (negative : Bool) :
    ∃ n : Numeral, n.Proper ∧ n.negative = negative ∧ n.fraction ≠ none ∧
      (d.positional ".0").toList = n.body := by
  have hrun := isRun_toString d.digits
  have hlength : (toString d.digits).length = (toString d.digits).toList.length :=
    String.length_toList.symm
  have hzero : IsRun ['0'] := ⟨List.cons_ne_nil _ _, List.all_eq_true.mp (by decide)⟩
  simp only [positional, hlength]
  split
  · refine ⟨⟨negative, (toString d.digits).toList ++ List.replicate d.exponent.toNat '0',
      some ['0'], none⟩, ⟨hrun.append_zeros _, ?_, ?_, by rintro _ ⟨⟩⟩, rfl,
      Option.some_ne_none _, ?_⟩
    · intro hfront
      rw [List.head?_append_of_ne_nil _ hrun.ne_nil] at hfront
      -- A zero in front is that of zero, which no others follow.
      obtain hzero | hpos := Nat.eq_zero_or_pos d.digits
      · rw [h.resolve_left (by omega), hzero]
        rfl
      · exact absurd hfront (head?_toString_ne_zero hpos)
    · rintro digits ⟨rfl⟩
      exact hzero
    · simp [body, pointChars, powerChars, toList_zeros]
  · next hexponent =>
    have hpos : 0 < d.digits := h.resolve_right (by omega)
    split
    · next hless =>
      refine ⟨⟨negative, (toString d.digits).toList.take
          ((toString d.digits).toList.length - (-d.exponent).toNat),
        some ((toString d.digits).toList.drop
          ((toString d.digits).toList.length - (-d.exponent).toNat)), none⟩,
        ⟨hrun.take (by omega), ?_, ?_, by rintro _ ⟨⟩⟩, rfl, Option.some_ne_none _, ?_⟩
      · intro hfront
        rw [List.head?_take, if_neg (by omega)] at hfront
        exact absurd hfront (head?_toString_ne_zero hpos)
      · rintro digits ⟨rfl⟩
        exact hrun.drop (by omega)
      · simp [body, pointChars, powerChars]
    · refine ⟨⟨negative, ['0'], some (List.replicate
        ((-d.exponent).toNat - (toString d.digits).toList.length) '0' ++
          (toString d.digits).toList), none⟩, ⟨hzero, fun _ => rfl, ?_, by rintro _ ⟨⟩⟩, rfl,
        Option.some_ne_none _, ?_⟩
      · rintro digits ⟨rfl⟩
        exact hrun.zeros_append _
      · simp [body, pointChars, powerChars, toList_zeros]

/-- A decimal with an exponent. -/
theorem Decimal.exists_numeral_scientific (d : Decimal) (negative : Bool) :
    ∃ n : Numeral, n.Proper ∧ n.negative = negative ∧ n.exponent ≠ none ∧
      d.scientific.toList = n.body := by
  have hrun := isRun_toString d.digits
  have hlength : (toString d.digits).length = (toString d.digits).toList.length :=
    String.length_toList.symm
  simp only [scientific, hlength]
  generalize d.exponent + ((toString d.digits).toList.length : Int) - 1 = exponent
  have hpower : ∀ power, some (decide (¬ 0 ≤ exponent), (toString exponent.natAbs).toList) =
      some power → IsRun power.2 := by
    rintro power ⟨rfl⟩
    exact isRun_toString _
  have hsign : (if 0 ≤ exponent then "+" else "-").toList =
      [if decide (¬ 0 ≤ exponent) then '-' else '+'] := by
    by_cases h : 0 ≤ exponent <;> simp [h]
  split
  · next hone =>
    refine ⟨⟨negative, (toString d.digits).toList, none, _⟩,
      ⟨hrun, fun _ => hone, by rintro _ ⟨⟩, hpower⟩, rfl, Option.some_ne_none _, ?_⟩
    simp [body, pointChars, powerChars, hsign]
  · next hmany =>
    have hpos := List.length_pos_iff.mpr hrun.ne_nil
    refine ⟨⟨negative, (toString d.digits).toList.take 1,
      some ((toString d.digits).toList.drop 1), _⟩,
      ⟨hrun.take Nat.one_pos, fun _ => ?_, ?_, hpower⟩, rfl, Option.some_ne_none _, ?_⟩
    · rw [List.length_take]
      omega
    · rintro digits ⟨rfl⟩
      exact hrun.drop (by omega)
    · simp [body, pointChars, powerChars, hsign]

end

/-! ## Numbers -/

open Numeral

/-- A floating-point number is written with a point or an exponent. -/
theorem Binary64.exists_numeral (x : Binary64) :
    ∃ n : Numeral, n.Proper ∧ n.negative = x.negative ∧ (n.fraction ≠ none ∨ n.exponent ≠ none) ∧
      x.marked.toList = signChars x.negative ++ n.body := by
  have hdigits : 0 < (shortestDecimal .toEven x.units).digits ∨
      (shortestDecimal .toEven x.units).exponent = 0 := by
    obtain hzero | hpos := Nat.eq_zero_or_pos x.units
    · rw [shortestDecimal, if_pos hzero]
      exact .inr rfl
    · rw [← shortestDecimal_units .toEven x.representable] at hpos
      exact .inl (Nat.pos_of_ne_zero (Decimal.digits_ne_zero hpos))
  simp only [marked, String.toList_append, toList_signText]
  split
  · obtain ⟨n, hproper, hsign, hfraction, hbody⟩ :=
      Decimal.exists_numeral_positional hdigits x.negative
    exact ⟨n, hproper, hsign, .inl hfraction, by rw [hbody]⟩
  · obtain ⟨n, hproper, hsign, hexponent, hbody⟩ :=
      (shortestDecimal .toEven x.units).exists_numeral_scientific x.negative
    exact ⟨n, hproper, hsign, .inr hexponent, by rw [hbody]⟩

theorem Numeral.int?_eq_none {n : Numeral} (h : n.fraction ≠ none ∨ n.exponent ≠ none) :
    n.int? = none := by
  unfold int?
  split
  · next hfraction hexponent => exact absurd hexponent (h.resolve_left (not_not.mpr hfraction))
  · rfl

/-- An integer of 64 bits is what its digits and its sign denote. -/
theorem Numeral.int?_toString {i : Int} (h : IsWord i) :
    int? ⟨decide (i < 0), (toString i.natAbs).toList, none, none⟩ = some (.int i h) := by
  simp only [int?, digitsValue_toString]
  by_cases hsign : i < 0
  · have hvalue : -((i.natAbs : Nat) : Int) = i := by omega
    have hne : ((i.natAbs : Nat) : Int) ≠ 0 := by omega
    simp only [hsign, decide_true, if_true, hvalue, dif_pos h, if_neg hne]
  · have hvalue : ((i.natAbs : Nat) : Int) = i := by omega
    simp only [hsign, decide_false, Bool.false_eq_true, if_false, hvalue, dif_pos h]

/-- Every number is written by a numeral that denotes it. Of an integer the reader of JSON text
makes the integer. -/
theorem Number.exists_numeral (number : Number) :
    ∃ n : Numeral, n.Proper ∧ number.text.toList = signChars n.negative ++ n.body ∧
      n.denoted? = some number ∧ ∀ i h, number = .int i h → n.value? = some number := by
  cases number with
  | int i h =>
      have hrun := isRun_toString i.natAbs
      have hint := int?_toString h
      refine ⟨⟨decide (i < 0), (toString i.natAbs).toList, none, none⟩,
        ⟨hrun, ?_, by rintro _ ⟨⟩, by rintro _ ⟨⟩⟩, ?_, ?_, ?_⟩
      · intro hfront
        obtain hzero | hpos := Nat.eq_zero_or_pos i.natAbs
        · rw [hzero]
          rfl
        · exact absurd hfront (head?_toString_ne_zero hpos)
      · rw [text, toList_toString_int]
        simp [body, pointChars, powerChars]
      · rw [denoted?, hint]
      · rintro _ _ -
        rw [value?, hint]
  | float x =>
      obtain ⟨n, hproper, hsign, hmarked, htext⟩ := x.exists_numeral
      refine ⟨n, hproper, by rw [hsign]; exact htext, ?_, by rintro _ _ ⟨⟩⟩
      have hread := x.ofText?_marked
      rw [Binary64.ofText?, htext, ← hsign, ofChars?_body hproper, Option.bind_some] at hread
      rw [denoted?, int?_eq_none hmarked, hread]
      rfl

end Questionnaire
