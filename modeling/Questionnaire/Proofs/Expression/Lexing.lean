import Questionnaire.Expression.Token
import Questionnaire.Proofs.Text.Digits

/-!
# The tokens of a text, position apart

Where a text starts changes the positions of its tokens and nothing else, so `Lexes` relates a text
to its tokens alone (`lexes_iff`). Each kind of token has a lemma that takes it from the front of a
text: it holds in both directions, because a text has at most one sequence of tokens.
-/

namespace Questionnaire

/-- The tokens of a text. -/
inductive Lexes : List Char → List Token → Prop
  | nil : Lexes [] []
  | blank {c : Char} {rest : List Char} {ts : List Token} (hc : Text.isBlank c = true)
      (h : Lexes rest ts) : Lexes (c :: rest) ts
  | token {c : Char} {rest : List Char} {ts : List Token} {s : Scanned (c :: rest)}
      (hc : Text.isBlank c = false) (hs : scan c rest = .ok s) (h : Lexes s.rest ts) :
      Lexes (c :: rest) (s.token :: ts)

theorem lexes_nil_iff {ts : List Token} : Lexes [] ts ↔ ts = [] := by
  constructor
  · intro h
    cases h
    rfl
  · rintro rfl
    exact .nil

theorem lexes_blank_iff {c : Char} {rest : List Char} {ts : List Token}
    (hc : Text.isBlank c = true) : Lexes (c :: rest) ts ↔ Lexes rest ts := by
  constructor
  · intro h
    cases h with
    | blank _ h => exact h
    | token hc' _ _ => exact absurd (hc.symm.trans hc') (by decide)
  · exact .blank hc

theorem lexes_token_iff {c : Char} {rest : List Char} {ts : List Token}
    (hc : Text.isBlank c = false) : Lexes (c :: rest) ts ↔
      ∃ s ts', scan c rest = .ok s ∧ ts = s.token :: ts' ∧ Lexes s.rest ts' := by
  constructor
  · intro h
    cases h with
    | blank hc' _ => exact absurd (hc.symm.trans hc') (by decide)
    | token _ hs h => exact ⟨_, _, hs, rfl, h⟩
  · rintro ⟨s, ts', hs, rfl, h⟩
    exact .token hc hs h

/-- The tokens of a text do not depend on where it starts. -/
theorem lexes_iff (position : Nat) (cs : List Char) (ts : List Token) :
    Lexes cs ts ↔
      ∃ lexemes, tokensFrom position cs = .ok lexemes ∧ lexemes.map Lexeme.token = ts := by
  fun_induction tokensFrom position cs generalizing ts with
  | case1 => simp [lexes_nil_iff, eq_comm]
  | case2 position c rest hc ih => rw [lexes_blank_iff hc, ih]
  | case3 position c rest hc fault hs =>
    rw [lexes_token_iff (by simpa using hc)]
    simp [hs]
  | case4 position c rest hc s hs e he ih =>
    rw [lexes_token_iff (by simpa using hc)]
    simp [hs, ih, he]
  | case5 position c rest hc s hs lexemes hlexemes ih =>
    rw [lexes_token_iff (by simpa using hc)]
    simp [hs, ih, hlexemes, eq_comm]

/-! ## Words -/

theorem isBlank_of_isWordPart {c : Char} (h : isWordPart c = true) : Text.isBlank c = false := by
  by_contra hblank
  have hmem : c.toNat ∈ Text.blankCodes := by simpa [Text.isBlank] using hblank
  have hnot := List.all_eq_true.mp Text.blankCodes_not_alphanumeric _ hmem
  rw [Char.ofNat_toNat] at hnot
  simp only [isWordPart, Bool.or_eq_true, beq_iff_eq] at h
  rcases h with h | rfl
  · simp [h] at hnot
  · exact hblank (by decide)

theorem isBlank_of_isWordStart {c : Char} (h : isWordStart c = true) : Text.isBlank c = false := by
  simp only [isWordStart, Bool.or_eq_true, beq_iff_eq] at h
  rcases h with (h | rfl) | rfl
  · exact isBlank_of_isWordPart (by simp [isWordPart, Text.isAlphanumeric, h])
  · decide
  · decide


/-! ## Which reader a character selects -/

/-- The characters that begin a sign, a name sign or a text literal. -/
def signCharacters : List Char :=
  ['(', ')', '@', '=', '!', '>', '<', '&', '|', '\'', '"']

theorem scan_of_not_sign {c : Char} (h : c ∉ signCharacters) (rest : List Char) :
    scan c rest =
      if c = '.' ∧ !startsWithDigit rest then .ok (.single .point c rest)
      else if c.isDigit ∨ c = '.' ∨ (c = '-' ∧ startsWithDigit rest) then scanNumber c rest
      else if isWordStart c then .ok (.run wordToken isWordPart c rest)
      else .error (.badCharacter c) := by
  unfold scan
  split
  all_goals first
    | exact absurd h (by decide)
    | rfl

theorem isLetter_of_isDigit {c : Char} (h : c.isDigit = true) : Text.isLetter c = false := by
  obtain ⟨-, hhigh⟩ := isDigit_iff.mp h
  have hupper : c.isUpper = false := by
    refine decide_eq_false fun hupper => ?_
    have hlow : 65 ≤ c.toNat := hupper.1
    omega
  have hlower : c.isLower = false := by
    refine Bool.and_eq_false_imp.mpr fun hlow => ?_
    have hlow : 97 ≤ c.toNat := of_decide_eq_true hlow
    omega
  rw [Text.isLetter, if_pos (by omega)]
  exact Bool.or_eq_false_iff.mpr ⟨hupper, hlower⟩

theorem not_isWordStart_of_isDigit {c : Char} (h : c.isDigit = true) : isWordStart c = false := by
  have hline : c ≠ '_' := by
    rintro rfl
    exact absurd h (by decide)
  have hdollar : c ≠ '$' := by
    rintro rfl
    exact absurd h (by decide)
  simp [isWordStart, isLetter_of_isDigit h, hline, hdollar]

theorem not_mem_of_all {p : Char → Bool} {cs : List Char} (hall : cs.all (fun c => !p c) = true)
    {c : Char} (h : p c = true) : c ∉ cs := by
  intro hmem
  simpa [h] using List.all_eq_true.mp hall c hmem

theorem scan_word {c : Char} (h : isWordStart c = true) (rest : List Char) :
    scan c rest = .ok (.run wordToken isWordPart c rest) := by
  have hsign : c ∉ signCharacters := not_mem_of_all (by decide) h
  have hdigit : c.isDigit = false := by
    by_contra hdigit
    simp only [Bool.not_eq_false] at hdigit
    simp [not_isWordStart_of_isDigit hdigit] at h
  have hpoint : c ≠ '.' := by
    rintro rfl
    exact absurd h (by decide)
  have hminus : c ≠ '-' := by
    rintro rfl
    exact absurd h (by decide)
  simp [scan_of_not_sign hsign, hpoint, hminus, hdigit, h]

theorem scan_number {c : Char} {rest : List Char}
    (h : c.isDigit = true ∨ (c = '.' ∨ c = '-') ∧ startsWithDigit rest = true) :
    scan c rest = scanNumber c rest := by
  have hsign : c ∉ signCharacters := by
    rcases h with h | ⟨rfl | rfl, -⟩
    · exact not_mem_of_all (by decide) h
    · decide
    · decide
  rw [scan_of_not_sign hsign]
  rcases h with h | ⟨rfl | rfl, h⟩
  · have hpoint : c ≠ '.' := by
      rintro rfl
      exact absurd h (by decide)
    simp [hpoint, h]
  · simp [h]
  · simp [h]

/-! ## A token in front of a text -/

section

variable {R : List Char} {ts : List Token}

theorem takeWhile_append_of_head {p : Char → Bool} {xs : List Char} (h : ∀ c ∈ xs, p c = true)
    (hR : ∀ c ∈ R.head?, p c = false) : (xs ++ R).takeWhile p = xs := by
  rw [List.takeWhile_append_of_pos h]
  cases R with
  | nil => simp
  | cons c R => simp [hR c rfl]

theorem dropWhile_append_of_head {p : Char → Bool} {xs : List Char} (h : ∀ c ∈ xs, p c = true)
    (hR : ∀ c ∈ R.head?, p c = false) : (xs ++ R).dropWhile p = R := by
  rw [List.dropWhile_append_of_pos h]
  cases R with
  | nil => simp
  | cons c R => simp [hR c rfl]

theorem startsWithDigit_append {xs : List Char} (h : startsWithDigit xs = true) :
    startsWithDigit (xs ++ R) = true := by
  cases xs with
  | nil => exact nomatch h
  | cons c xs => exact h

/-- A word, in front of what does not continue it. -/
theorem lexes_word_iff {c : Char} {w : List Char} (hc : isWordStart c = true)
    (hrest : ∀ d ∈ w, isWordPart d = true) (hR : ∀ d ∈ R.head?, isWordPart d = false) :
    Lexes (c :: w ++ R) ts ↔ ∃ ts', ts = wordToken (c :: w) :: ts' ∧ Lexes R ts' := by
  rw [List.cons_append, lexes_token_iff (isBlank_of_isWordStart hc), scan_word hc]
  simp [Scanned.run, takeWhile_append_of_head hrest hR, dropWhile_append_of_head hrest hR]

/-- A number, in front of what does not continue it. -/
theorem lexes_number_iff {c : Char} {rest : List Char}
    (hc : c.isDigit = true ∨ (c = '.' ∨ c = '-') ∧ startsWithDigit rest = true)
    (hrest : ∀ d ∈ rest, isNumberPart d = true) (hR : ∀ d ∈ R.head?, isNumberPart d = false) :
    Lexes (c :: rest ++ R) ts ↔
      ∃ d ts', DecimalNotation.ofChars? (c :: rest) = some d ∧ ts = .number d.nearest :: ts' ∧
        Lexes R ts' := by
  have hblank : Text.isBlank c = false := by
    rcases hc with hc | ⟨rfl | rfl, -⟩
    · exact isBlank_of_isDigit hc
    · decide
    · decide
  rw [List.cons_append, lexes_token_iff hblank,
    scan_number (hc.imp_right (And.imp_right startsWithDigit_append)), scanNumber,
    takeWhile_append_of_head hrest hR]
  cases DecimalNotation.ofChars? (c :: rest) with
  | none => simp
  | some d => simp [Scanned.run, dropWhile_append_of_head hrest hR]

/-- A text literal, whatever stands behind it. -/
theorem lexes_text_iff : Lexes ('\'' :: R) ts ↔
    ∃ value used rest ts', textLiteral? '\'' R = some (value, used, rest) ∧
      ts = .text (String.ofList value) :: ts' ∧ Lexes rest ts' := by
  rw [lexes_token_iff (by decide)]
  show (∃ s ts', scanText '\'' R = _ ∧ _) ↔ _
  unfold scanText
  split
  · next value used rest h => simp [h]
  · next h => simp [h]

/-- A point that no digit follows. -/
theorem lexes_point_iff (h : startsWithDigit R = false) :
    Lexes ('.' :: R) ts ↔ ∃ ts', ts = .point :: ts' ∧ Lexes R ts' := by
  rw [lexes_token_iff (by decide), scan_of_not_sign (by decide)]
  simp [h, Scanned.single]

theorem lexes_leftParen_iff :
    Lexes ('(' :: R) ts ↔ ∃ ts', ts = .leftParen :: ts' ∧ Lexes R ts' := by
  rw [lexes_token_iff (by decide)]
  simp [scan, Scanned.single]

theorem lexes_rightParen_iff :
    Lexes (')' :: R) ts ↔ ∃ ts', ts = .rightParen :: ts' ∧ Lexes R ts' := by
  rw [lexes_token_iff (by decide)]
  simp [scan, Scanned.single]

theorem lexes_atSign_iff :
    Lexes ('@' :: R) ts ↔ ∃ ts', ts = .atSign :: ts' ∧ Lexes R ts' := by
  rw [lexes_token_iff (by decide)]
  simp [scan, Scanned.single]

/-- A word in front of a blank. -/
theorem lexes_word_blank_iff {c : Char} {w : List Char} (hc : isWordStart c = true)
    (hrest : ∀ d ∈ w, isWordPart d = true) :
    Lexes (c :: w ++ ' ' :: R) ts ↔ ∃ ts', ts = wordToken (c :: w) :: ts' ∧ Lexes R ts' := by
  have hend : ∀ d ∈ (' ' :: R).head?, isWordPart d = false := by
    rintro d hd
    obtain rfl : ' ' = d := Option.some.inj hd
    decide
  simp only [lexes_word_iff hc hrest hend, lexes_blank_iff (show Text.isBlank ' ' = true by decide)]

theorem lexes_not_iff :
    Lexes ("not ".toList ++ R) ts ↔ ∃ ts', ts = .notSign :: ts' ∧ Lexes R ts' :=
  lexes_word_blank_iff (c := 'n') (w := ['o', 't']) (by decide) (List.all_eq_true.mp (by decide))

/-- An operator between blanks. -/
theorem lexes_operator_iff (op : Operator) :
    Lexes (' ' :: (op.symbol.toList ++ ' ' :: R)) ts ↔
      ∃ ts', ts = .operator op :: ts' ∧ Lexes R ts' := by
  rw [lexes_blank_iff (by decide)]
  cases op with
  | or =>
      exact lexes_word_blank_iff (c := 'o') (w := ['r']) (by decide)
        (List.all_eq_true.mp (by decide))
  | and =>
      exact lexes_word_blank_iff (c := 'a') (w := ['n', 'd']) (by decide)
        (List.all_eq_true.mp (by decide))
  | member =>
      exact lexes_word_blank_iff (c := 'i') (w := ['n']) (by decide)
        (List.all_eq_true.mp (by decide))
  | _ =>
      simp only [Operator.symbol, String.reduceToList, List.cons_append, List.nil_append]
      rw [lexes_token_iff (by decide)]
      simp [scan, Scanned.single, lexes_blank_iff (show Text.isBlank ' ' = true by decide)]

end

/-! ## What words are made of -/

theorem isWordPart_of_isWordStart {c : Char} (h : isWordStart c = true) (hdollar : c ≠ '$') :
    isWordPart c = true := by
  simp only [isWordStart, Bool.or_eq_true, beq_iff_eq] at h
  rcases h with (h | rfl) | rfl
  · simp [isWordPart, Text.isAlphanumeric, h]
  · decide
  · exact absurd rfl hdollar

theorem wordToken_eq_word {cs : List Char} {w : String} (h : wordToken cs = .word w) :
    w = String.ofList (cs.dropWhile (· == '$')) := by
  unfold wordToken at h
  split at h
  case h_5 => exact (Token.word.inj h).symm
  all_goals exact nomatch h

theorem scan_token_word {c : Char} {rest : List Char} {s : Scanned (c :: rest)} {w : String}
    (hs : scan c rest = .ok s) (hw : s.token = .word w) :
    isWordStart c = true ∧ wordToken (c :: rest.takeWhile isWordPart) = .word w := by
  unfold scan at hs
  split at hs
  -- Quotes, numbers and single signs give other tokens; only a run of word characters gives words.
  case h_15 | h_16 =>
    unfold scanText at hs
    split at hs
    · cases hs
      exact nomatch hw
    · exact nomatch hs
  case h_17 =>
    split at hs
    · cases hs
      exact nomatch hw
    · split at hs
      · unfold scanNumber at hs
        dsimp only at hs
        split at hs
        · cases hs
          exact nomatch hw
        · exact nomatch hs
      · split at hs
        · next hc =>
          cases hs
          exact ⟨hc, hw⟩
        · exact nomatch hs
  all_goals
    cases hs
    exact nomatch hw

/-- A word without its sign has only characters that can continue one. -/
theorem Lexes.isWordPart_of_word {cs : List Char} {ts : List Token} (h : Lexes cs ts) {w : String}
    (hw : .word w ∈ ts) : ∀ c ∈ w.toList, isWordPart c = true := by
  induction h with
  | nil => exact nomatch hw
  | blank _ _ ih => exact ih hw
  | @token c rest ts s _ hs _ ih =>
      rcases List.mem_cons.mp hw with hw | hw
      · obtain ⟨hstart, hword⟩ := scan_token_word hs hw.symm
        intro d hd
        rw [wordToken_eq_word hword, String.toList_ofList] at hd
        -- Dollar signs in front of the word are dropped; behind them only word characters are left.
        by_cases hdollar : c = '$'
        · rw [hdollar, List.dropWhile_cons_of_pos (by decide)] at hd
          exact List.mem_takeWhile_imp (List.dropWhile_subset _ hd)
        · rw [List.dropWhile_cons_of_neg (by simpa using hdollar)] at hd
          rcases List.mem_cons.mp hd with rfl | hd
          · exact isWordPart_of_isWordStart hstart hdollar
          · exact List.mem_takeWhile_imp hd
      · exact ih hw

end Questionnaire
