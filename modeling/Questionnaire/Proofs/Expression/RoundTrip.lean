import Questionnaire.Proofs.Expression.Nesting

/-!
# Reading a print back

The print of an expression that has been read is read back as an expression of the same value
exactly if the expression is legible. One direction follows the printer: its tokens are a phrase
for the expression. The other follows the print from left to right: as long as its tokens are those
of the expression's tree, each name, text and number must have been written the way it is read, and
each operand of a comparison must stand deeper than the operator.
-/

namespace Questionnaire

open Grammar

/-- A legible expression that has been read is read back, zeros without their signs. -/
theorem Expression.Legible.parse_display {known : List String} {e : Expression} (h : e.Legible)
    (hresolved : e.Resolved known) : Expression.parse known e.display = .ok e.readBack := by
  refine parse_iff_lexes.mpr ⟨e.readBack.tokensAt 0, e.readBack, ?_,
    (h.phrases hresolved).disjunction, ?_, hresolved.resolve_readBack⟩
  · simpa [display] using h.printsAt 0 [] [] delimited_nil .nil
  · rw [conditions_readBack]
    exact hresolved.known

/-! ## What stands behind a part of a print -/

/-- No backslash stands in front of the first quote. -/
def Plain (cs : List Char) : Prop :=
  '\\' ∉ cs.takeWhile (· != '\'')

theorem plain_cons {c : Char} {R : List Char} (h : c ≠ '\'') :
    Plain (c :: R) ↔ c ≠ '\\' ∧ Plain R := by
  rw [Plain, List.takeWhile_cons_of_pos (by simpa using h), List.mem_cons, not_or, ne_comm]
  rfl

theorem plain_append {xs R : List Char} (h : '\\' ∉ xs) (hR : Plain R) : Plain (xs ++ R) := by
  induction xs with
  | nil => exact hR
  | cons c xs ih =>
      rw [List.mem_cons, not_or] at h
      by_cases hquote : c = '\''
      · simp [Plain, hquote]
      · exact (plain_cons hquote).mpr ⟨Ne.symm h.1, ih h.2⟩

theorem plain_quote (R : List Char) : Plain ('\'' :: R) := by
  simp [Plain]

/-- The tokens of a text do not begin with a word, parentheses apart. -/
def NoWord (R : List Char) : Prop :=
  ∀ {ts : List Token} {depth : Nat} {w : String} {level : Nat} {ats : List (Token × Nat)},
    Lexes R ts → levels depth ts ≠ (.word w, level) :: ats

/-- What stands behind a part of a print. -/
structure Behind (R : List Char) : Prop where
  delimited : Delimited R
  plain : Plain R
  noWord : NoWord R

theorem behind_nil : Behind [] where
  delimited := delimited_nil
  plain := by simp [Plain]
  noWord h := by
    cases h
    exact nofun

theorem Behind.rightParen {R : List Char} (h : Behind R) : Behind (')' :: R) where
  delimited := delimited_cons (.inr rfl)
  plain := (plain_cons (by decide)).mpr ⟨by decide, h.plain⟩
  noWord hlexes := by
    obtain ⟨ts', rfl, hts'⟩ := lexes_rightParen_iff.mp hlexes
    rw [levels_rightParen]
    exact h.noWord hts'

theorem behind_operator (op : Operator) {R : List Char} (h : Plain R) :
    Behind (' ' :: (op.symbol.toList ++ ' ' :: R)) where
  delimited := delimited_cons (.inl rfl)
  plain := by
    have hshape : ' ' :: (op.symbol.toList ++ ' ' :: R) =
        (' ' :: (op.symbol.toList ++ [' '])) ++ R := by simp
    rw [hshape]
    refine plain_append ?_ h
    cases op <;> decide
  noWord hlexes := by
    obtain ⟨ts', rfl, -⟩ := (lexes_operator_iff op).mp hlexes
    exact fun heq => nomatch (List.cons.inj heq).1

/-! ## Names -/

theorem wordToken_ne_word {name : String} (h : name ∈ keywords) (w : String) :
    wordToken name.toList ≠ .word w ∧ (wordToken name.toList).isParen = false := by
  simp only [keywords, List.mem_cons, List.not_mem_nil, or_false] at h
  rcases h with rfl | rfl | rfl | rfl <;> simp [wordToken, Token.isParen]

theorem not_sign_of_isWordPart {c : Char} (h : isWordPart c = true) :
    c ∉ '.' :: '-' :: signCharacters :=
  not_mem_of_all (by decide) h

/-- What is read of characters that can continue a word but begin none is no word. -/
theorem not_word_of_lexes {c : Char} {rest : List Char} {ts : List Token}
    (hpart : isWordPart c = true) (hstart : isWordStart c = false) (h : Lexes (c :: rest) ts) :
    ∃ x ts', ts = .number x :: ts' := by
  obtain ⟨s, ts', hs, rfl, -⟩ := (lexes_token_iff (isBlank_of_isWordPart hpart)).mp h
  have hpunctuation := not_sign_of_isWordPart hpart
  simp only [List.mem_cons, not_or] at hpunctuation
  obtain ⟨hpoint, hminus, hsign⟩ := hpunctuation
  rw [scan_of_not_sign (by simpa using hsign)] at hs
  simp only [hpoint, hminus, hstart, false_and, if_false, or_false] at hs
  split at hs
  · unfold scanNumber at hs
    dsimp only at hs
    split at hs
    · cases hs
      exact ⟨_, ts', rfl⟩
    · exact nomatch hs
  · simp at hs

section

variable {R : List Char} {ts : List Token} {depth level : Nat} {rest : List (Token × Nat)}

/-- If a name is read where a name was written, it is a name. -/
theorem isName_of_lexes {name : String} (hparts : ∀ c ∈ name.toList, isWordPart c = true)
    (hR : ∀ c ∈ R.head?, isWordPart c = false) (hword : NoWord R)
    (h : Lexes (name.toList ++ R) ts) (hlevels : levels depth ts = (.word name, level) :: rest) :
    IsName name ∧ ∃ ts', Lexes R ts' ∧ levels depth ts' = rest := by
  cases hname : name.toList with
  | nil =>
      rw [hname] at h
      exact absurd hlevels (hword h)
  | cons c cs =>
      rw [hname] at h hparts
      have hc := hparts c List.mem_cons_self
      cases hstart : isWordStart c with
      | false =>
          obtain ⟨x, ts', rfl⟩ := not_word_of_lexes hc hstart h
          exact nomatch (List.cons.inj hlevels).1
      | true =>
          obtain ⟨ts', rfl, hts'⟩ :=
            (lexes_word_iff hstart (fun d hd => hparts d (.tail _ hd)) hR).mp h
          rw [← hname] at hlevels
          -- A keyword would have been read as a sign, not as the name.
          have hkeyword : name ∉ keywords := by
            intro hmem
            obtain ⟨hne, hparen⟩ := wordToken_ne_word hmem name
            rw [levels_cons hparen] at hlevels
            exact hne (Prod.mk.inj (List.cons.inj hlevels).1).1
          -- A dollar sign would have been dropped, but no name has one.
          have hdollar : c ≠ '$' := by
            rintro rfl
            exact absurd hc (by decide)
          have htoken := wordToken_toList hkeyword (by simpa [hname] using hdollar)
          rw [htoken, levels_cons rfl] at hlevels
          refine ⟨⟨?_, hname ▸ hparts, hkeyword⟩, ts', hts', (List.cons.inj hlevels).2⟩
          rw [hname]
          simp only [isWordStart, Bool.or_eq_true, beq_iff_eq, hdollar, or_false] at hstart
          simpa using hstart

theorem lexes_point (h : Lexes ('.' :: R) ts) :
    (∃ ts', ts = .point :: ts' ∧ Lexes R ts') ∨ ∃ x ts', ts = .number x :: ts' := by
  cases hdigit : startsWithDigit R with
  | false => exact .inl ((lexes_point_iff hdigit).mp h)
  | true =>
      obtain ⟨s, ts', hs, rfl, -⟩ := (lexes_token_iff (by decide)).mp h
      rw [scan_number (.inr ⟨.inl rfl, hdigit⟩)] at hs
      unfold scanNumber at hs
      dsimp only at hs
      split at hs
      · cases hs
        exact .inr ⟨_, ts', rfl⟩
      · exact nomatch hs

theorem noWord_pointedText (h : NoWord R) (names : List String) :
    NoWord (pointedText names ++ R) := by
  cases names with
  | nil => exact h
  | cons name names =>
      intro ts depth w level ats hlexes heq
      rcases lexes_point hlexes with ⟨ts', rfl, -⟩ | ⟨x, ts', rfl⟩
      · exact nomatch (List.cons.inj heq).1
      · exact nomatch (List.cons.inj heq).1

/-- If the names behind the first of a path are read as they were written, they are names. -/
theorem isName_of_lexes_pointed (hR : Behind R) {names : List String}
    (hparts : ∀ name ∈ names, ∀ c ∈ name.toList, isWordPart c = true)
    (h : Lexes (pointedText names ++ R) ts)
    (hlevels : levels depth ts = (pointedNames names).map (·, level) ++ rest) :
    (∀ name ∈ names, IsName name) ∧ ∃ ts', Lexes R ts' ∧ levels depth ts' = rest := by
  induction names generalizing ts with
  | nil => exact ⟨nofun, ts, h, hlevels⟩
  | cons name names ih =>
      obtain ⟨hname, hnames⟩ := List.forall_mem_cons.mp hparts
      rw [pointedText_cons] at h
      rcases lexes_point h with ⟨ts', rfl, hts'⟩ | ⟨x, ts', rfl⟩
      · rw [levels_cons rfl] at hlevels
        have htail := (List.cons.inj hlevels).2
        obtain ⟨hisName, ts'', hts'', hrest⟩ := isName_of_lexes hname
          (not_wordPart_pointedText hR.delimited.not_wordPart names)
          (noWord_pointedText hR.noWord names) hts' htail
        obtain ⟨hisNames, hbehind⟩ := ih hnames hts'' hrest
        exact ⟨List.forall_mem_cons.mpr ⟨hisName, hisNames⟩, hbehind⟩
      · exact nomatch (List.cons.inj hlevels).1

/-! ## Texts -/

/-- Without a backslash in front of the closing quote, a text literal holds none. -/
theorem not_mem_textLiteral? {value used rest' : List Char} (hplain : Plain R)
    (h : textLiteral? '\'' R = some (value, used, rest')) : '\\' ∉ value := by
  fun_induction textLiteral? '\'' R generalizing value used with
  | case1 => cases h
  | case2 c tail ih => exact absurd hplain (by simp [Plain])
  | case3 tail _ =>
    cases h
    exact List.not_mem_nil
  | case4 c tail hslash hquote ih =>
    obtain ⟨⟨v, u, r⟩, hr, heq⟩ := Option.map_eq_some_iff.mp h
    simp only [Prod.mk.injEq] at heq
    obtain ⟨rfl, rfl, rfl⟩ := heq
    obtain ⟨hne, htail⟩ := (plain_cons hquote).mp hplain
    rw [List.mem_cons, not_or]
    exact ⟨Ne.symm hne, ih htail hr⟩

/-- The text ends in a backslash, and what is read of it ends in another character. -/
def LosesBackslash (s value : List Char) : Prop :=
  s.getLast? = some '\\' ∧ ∃ c, value.getLast? = some c ∧ c ≠ '\\'

theorem LosesBackslash.cons {s value : List Char} (h : LosesBackslash s value) (a b : Char) :
    LosesBackslash (a :: s) (b :: value) := by
  obtain ⟨hs, c, hvalue, hc⟩ := h
  exact ⟨by simp [List.getLast?_cons, hs], c, by simp [List.getLast?_cons, hvalue], hc⟩

/-- What becomes of a text between quotes: all of it is read if it holds neither a quote nor a
backslash. Otherwise what is read is shorter, or a backslash at the end took the closing quote
along. -/
theorem textLiteral?_append (hR : Plain R) {s value used rest' : List Char}
    (h : textLiteral? '\'' (s ++ '\'' :: R) = some (value, used, rest')) :
    ((∀ c ∈ s, c ≠ '\'' ∧ c ≠ '\\') ∧ value = s ∧ rest' = R) ∨ value.length < s.length ∨
      LosesBackslash s value := by
  generalize hinput : s ++ '\'' :: R = input at h
  fun_induction textLiteral? '\'' input generalizing s value used with
  | case1 => simp at hinput
  | case2 c tail ih =>
    obtain ⟨⟨v, u, r⟩, hr, heq⟩ := Option.map_eq_some_iff.mp h
    simp only [Prod.mk.injEq] at heq
    obtain ⟨rfl, rfl, rfl⟩ := heq
    rcases s with - | ⟨a, - | ⟨b, s⟩⟩
    · exact absurd (List.cons.inj hinput).1 (by decide)
    · -- The closing quote is read as part of the text.
      obtain ⟨rfl, rfl, rfl⟩ : a = '\\' ∧ '\'' = c ∧ R = tail := by simpa using hinput
      refine .inr (.inr ⟨rfl, _, List.getLast?_cons, ?_⟩)
      have hmem := not_mem_textLiteral? hR hr
      cases hlast : v.getLast? with
      | none => decide
      | some c =>
          rintro rfl
          exact hmem (List.mem_of_getLast? hlast)
    · obtain ⟨rfl, rfl, hs⟩ : a = '\\' ∧ b = c ∧ s ++ '\'' :: R = tail := by simpa using hinput
      -- The backslash is dropped, so what is read is shorter, unless more was lost further on.
      rcases ih hs hr with ⟨-, rfl, -⟩ | hless | hlost
      · exact .inr (.inl (Nat.lt_succ_self _))
      · exact .inr (.inl (Nat.lt_succ_of_lt (Nat.succ_lt_succ hless)))
      · exact .inr (.inr ((hlost.cons b b).cons '\\' b))
  | case3 tail _ =>
    obtain ⟨rfl, rfl, rfl⟩ : [] = value ∧ ['\''] = used ∧ tail = rest' := by simpa using h
    cases s with
    | nil => exact .inl ⟨by simp, rfl, (List.cons.inj hinput).2.symm⟩
    | cons c s => exact .inr (.inl (Nat.succ_pos _))
  | case4 c tail hslash hquote ih =>
    obtain ⟨⟨v, u, r⟩, hr, heq⟩ := Option.map_eq_some_iff.mp h
    simp only [Prod.mk.injEq] at heq
    obtain ⟨rfl, rfl, rfl⟩ := heq
    cases s with
    | nil => exact absurd (List.cons.inj hinput).1.symm hquote
    | cons a s =>
        obtain ⟨rfl, hs⟩ : a = c ∧ s ++ '\'' :: R = tail := by simpa using hinput
        rcases ih hs hr with ⟨hclean, rfl, rfl⟩ | hless | hlost
        · refine .inl ⟨List.forall_mem_cons.mpr ⟨⟨hquote, ?_⟩, hclean⟩, rfl, rfl⟩
          rintro rfl
          -- A backslash here would have taken the next character along.
          obtain ⟨b, rest, hcons⟩ := List.exists_cons_of_ne_nil (l := v ++ '\'' :: r) (by simp)
          exact hslash b rest rfl (hs.symm.trans hcons)
        · exact .inr (.inl (Nat.succ_lt_succ hless))
        · exact .inr (.inr (hlost.cons a a))

theorem lexes_text_of_display {s : String} (hR : Plain R)
    (h : Lexes ((Value.text s).display.toList ++ R) ts) :
    ∃ t ts', ts = .text t :: ts' ∧ (t = s → (Value.text s).Legible ∧ Lexes R ts') := by
  have hshape : (Value.text s).display.toList ++ R = '\'' :: (s.toList ++ '\'' :: R) := by
    simp [Value.display]
  rw [hshape, lexes_text_iff] at h
  obtain ⟨value, used, rest', ts', hread, rfl, hts'⟩ := h
  refine ⟨_, ts', rfl, fun heq => ?_⟩
  have hvalue : value = s.toList := by rw [← heq, String.toList_ofList]
  rcases textLiteral?_append hR hread with ⟨hclean, -, rfl⟩ | hless | ⟨hlast, c, hc, hne⟩
  · exact ⟨hclean, hts'⟩
  · rw [hvalue] at hless
    exact absurd hless (Nat.lt_irrefl _)
  · rw [hvalue, hlast] at hc
    exact absurd (Option.some.inj hc).symm hne

/-! ## Values -/

theorem Spelled.eq_singleton {value : Value} {ats : List (Token × Nat)}
    (h : Spelled (.literal value) ats) : ∃ token level, ats = [(token, level)] := by
  cases h <;> exact ⟨_, _, rfl⟩

theorem Spelled.eq_number {x : Extended64} {ats : List (Token × Nat)}
    (h : Spelled (.literal (.number x)) ats) : ∃ level, ats = [(.number x, level)] := by
  cases h with
  | number => exact ⟨_, rfl⟩
  | literal hword => simp [literalWords] at hword

theorem Spelled.eq_text {s : String} {ats : List (Token × Nat)}
    (h : Spelled (.literal (.text s)) ats) : ∃ level, ats = [(.text s, level)] := by
  cases h with
  | text => exact ⟨_, rfl⟩
  | literal hword => simp [literalWords] at hword

theorem lexes_number_of_display {x y : Extended64} (hR : Delimited R)
    (h : Lexes ((Value.number x).display.toList ++ R) ts) (hsame : y.same x = true)
    (hlevels : levels depth ts = (.number y, level) :: rest) :
    (Value.number x).Legible ∧ ∃ ts', Lexes R ts' ∧ levels depth ts' = rest := by
  cases x with
  | infinite negative =>
      obtain ⟨ts', rfl⟩ := Lexes.of_infinite hR.not_wordPart h
      exact nomatch (List.cons.inj hlevels).1
  | finite x =>
      by_cases hwritable : x.Writable
      · obtain ⟨ts', rfl, hts'⟩ :=
          (lexes_rounded_iff (Binary64.ofText?_rounded hwritable) hR.not_numberPart).mp h
        exact ⟨hwritable, ts', hts', (List.cons.inj hlevels).2⟩
      · obtain ⟨z, hz, hne⟩ := Binary64.ofText?_rounded_of_not_writable hwritable
        obtain ⟨ts', rfl, -⟩ := (lexes_rounded_iff hz hR.not_numberPart).mp h
        rw [levels_cons rfl] at hlevels
        obtain rfl : .finite z = y := Token.number.inj (Prod.mk.inj (List.cons.inj hlevels).1).1
        exact absurd (hsame.symm.trans hne) (by decide)

theorem lexes_word_of_display {word : String} (hword : IsName word) (hR : Delimited R)
    (h : Lexes (word.toList ++ R) ts) {at' : Token × Nat}
    (hlevels : levels depth ts = at' :: rest) : ∃ ts', Lexes R ts' ∧ levels depth ts' = rest := by
  obtain ⟨ts', rfl, hts'⟩ := (hword.lexes_iff hR.not_wordPart).mp h
  exact ⟨ts', hts', (List.cons.inj hlevels).2⟩

/-- If a value is read where one equal to it was written, the value is legible. -/
theorem Value.legible_of_lexes {value read : Value} {ats : List (Token × Nat)}
    (hlist : ∀ items, value ≠ .list items) (hR : Behind R)
    (h : Lexes (value.display.toList ++ R) ts) (hlevels : levels depth ts = ats ++ rest)
    (hspelled : Spelled (.literal read) ats) (hsame : read.same value = true) :
    value.Legible ∧ ∃ ts', Lexes R ts' ∧ levels depth ts' = rest := by
  obtain ⟨token, level, hats⟩ := hspelled.eq_singleton
  rw [hats] at hlevels
  cases value with
  | list items => exact absurd rfl (hlist items)
  | number x =>
      cases read with
      | number y =>
          obtain ⟨level, rfl⟩ := hspelled.eq_number
          cases hats
          exact lexes_number_of_display hR.delimited h hsame hlevels
      | _ => simp [same] at hsame
  | text s =>
      cases read with
      | text t =>
          obtain ⟨level, rfl⟩ := hspelled.eq_text
          cases hats
          obtain ⟨u, ts', rfl, hlegible⟩ := lexes_text_of_display hR.plain h
          rw [levels_cons rfl] at hlevels
          obtain rfl : u = t := Token.text.inj (Prod.mk.inj (List.cons.inj hlevels).1).1
          obtain ⟨hs, hts'⟩ := hlegible (by simpa [same] using hsame)
          exact ⟨hs, ts', hts', (List.cons.inj hlevels).2⟩
      | _ => simp [same] at hsame
  | bool b =>
      refine ⟨trivial, ?_⟩
      cases b
      · exact lexes_word_of_display (by decide +kernel : IsName "false") hR.delimited h hlevels
      · exact lexes_word_of_display (by decide +kernel : IsName "true") hR.delimited h hlevels
  | null =>
      exact ⟨trivial,
        lexes_word_of_display (by decide +kernel : IsName "null") hR.delimited h hlevels⟩

end

/-! ## Backslashes in a print -/

theorem not_slash_of_isWordPart {cs : List Char} (h : ∀ c ∈ cs, isWordPart c = true) :
    '\\' ∉ cs :=
  fun hmem => absurd (h _ hmem) (by decide)

theorem not_slash_of_rounded (x : Extended64) : '\\' ∉ x.rounded.toList := by
  cases x with
  | infinite negative => cases negative <;> decide
  | finite x =>
      obtain ⟨negative, body, hshape, -, hbody⟩ := x.rounded_eq_signed
      rw [hshape, List.mem_append, not_or]
      refine ⟨?_, fun hmem => absurd (hbody _ hmem) (by decide)⟩
      cases negative <;> decide

theorem Value.plain_display {value : Value} (hlist : ∀ items, value ≠ .list items) {R : List Char}
    (hR : Plain R) : Plain (value.display.toList ++ R) := by
  cases value with
  | list items => exact absurd rfl (hlist items)
  | number x => exact plain_append (not_slash_of_rounded x) hR
  | text s =>
      have hshape : (Value.text s).display.toList ++ R = '\'' :: (s.toList ++ '\'' :: R) := by
        simp [Value.display]
      rw [hshape]
      exact plain_quote _
  | bool b => cases b <;> exact plain_append (by decide) hR
  | null => exact plain_append (by decide) hR

theorem plain_pointedText {names : List String}
    (h : ∀ name ∈ names, ∀ c ∈ name.toList, isWordPart c = true) {R : List Char} (hR : Plain R) :
    Plain (pointedText names ++ R) := by
  induction names with
  | nil => exact hR
  | cons name names ih =>
      obtain ⟨hname, hnames⟩ := List.forall_mem_cons.mp h
      rw [pointedText_cons]
      exact (plain_cons (by decide)).mpr
        ⟨by decide, plain_append (not_slash_of_isWordPart hname) (ih hnames)⟩

theorem plain_displayAt_of_zero {e : Expression}
    (h : ∀ R, Plain R → Plain ((e.displayAt 0).toList ++ R)) (place : Nat) {R : List Char}
    (hR : Plain R) : Plain ((e.displayAt place).toList ++ R) := by
  rw [toList_displayAt]
  split
  · have hclose : Plain (')' :: R) := (plain_cons (by decide)).mpr ⟨by decide, hR⟩
    have hopen := (plain_cons (c := '(') (by decide)).mpr ⟨by decide, h _ hclose⟩
    simpa using hopen
  · exact h R hR

/-- In a print, no backslash stands in front of the first quote. -/
theorem plain_displayAt {known : List String} {e : Expression} (h : e.Resolved known)
    (place : Nat) {R : List Char} (hR : Plain R) : Plain ((e.displayAt place).toList ++ R) := by
  induction e generalizing place R with
  | literal value =>
      refine plain_displayAt_of_zero (fun R hR => ?_) place hR
      exact Value.plain_display h hR
  | field path =>
      refine plain_displayAt_of_zero (fun R hR => ?_) place hR
      obtain ⟨hfirst, hrest⟩ := List.forall_mem_cons.mp h.2.2
      show Plain (path.dotted.toList ++ R)
      rw [toList_dotted, List.append_assoc]
      exact plain_append (not_slash_of_isWordPart hfirst) (plain_pointedText hrest hR)
  | condition name =>
      refine plain_displayAt_of_zero (fun R hR => ?_) place hR
      rw [toList_displayAt_condition, List.cons_append]
      exact (plain_cons (by decide)).mpr
        ⟨by decide, plain_append (not_slash_of_isWordPart h.2) hR⟩
  | not operand ih =>
      refine plain_displayAt_of_zero (fun R hR => ?_) place hR
      rw [toList_displayAt_not, List.append_assoc]
      exact plain_append (by decide) (ih h 8 hR)
  | binary op left right ihl ihr =>
      refine plain_displayAt_of_zero (fun R hR => ?_) place hR
      have hbehind := behind_operator op (ihr h.2 (op.precedence + 1) hR)
      have hboth := ihl h.1 op.precedence hbehind.plain
      rw [toList_displayAt_binary]
      simpa using hboth

/-! ## Expressions -/

theorem precedence_resolve (known : List String) (tree : Expression) :
    (tree.resolve known).precedence = tree.precedence := by
  cases tree with
  | field path =>
      rw [Expression.resolve]
      split <;> rfl
  | _ => rfl

theorem isValue_of_same {known : List String} {e tree : Expression}
    (h : (tree.resolve known).same e = true) : tree.IsValue ↔ e.IsValue := by
  have hprecedence : (tree.resolve known).precedence = e.precedence := by
    generalize tree.resolve known = read at h
    cases read <;> cases e <;> simp_all [Expression.same, Expression.precedence]
  rw [Expression.IsValue, Expression.IsValue, ← hprecedence, precedence_resolve]

/-- A tree that is read as a value is that value, and so on for each kind of expression. -/
theorem tree_of_same {known : List String} {e tree : Expression}
    (h : (tree.resolve known).same e = true) :
    match e with
    | .literal value => ∃ read, tree = .literal read ∧ read.same value = true
    | .field path => tree = .field path
    | .condition name => tree = .condition name ∨ tree = .field ⟨name, []⟩
    | .not operand => ∃ read, tree = .not read ∧ (read.resolve known).same operand = true
    | .binary op left right => ∃ a b, tree = .binary op a b ∧
        (a.resolve known).same left = true ∧ (b.resolve known).same right = true := by
  cases tree with
  | literal read =>
      cases e with
      | literal value => exact ⟨read, rfl, h⟩
      | _ => cases h
  | field path =>
      rw [Expression.resolve] at h
      split at h
      · next hreference =>
        cases e with
        | condition name =>
            obtain rfl : path.first = name := of_decide_eq_true h
            exact .inr (congrArg _ (by rw [← hreference.1]))
        | _ => cases h
      · cases e with
        | field other => exact congrArg _ (of_decide_eq_true h)
        | _ => cases h
  | condition name =>
      cases e with
      | condition other => exact .inl (congrArg _ (of_decide_eq_true h))
      | _ => cases h
  | not read =>
      cases e with
      | not operand => exact ⟨read, rfl, h⟩
      | _ => cases h
  | binary op a b =>
      cases e with
      | binary op' left right =>
          simp only [Expression.resolve, Expression.same, Bool.and_eq_true, decide_eq_true_eq] at h
          obtain ⟨⟨rfl, ha⟩, hb⟩ := h
          exact ⟨a, b, rfl, ha, hb⟩
      | _ => cases h

/-- Whatever stands behind the print of an expression at a place: if its tokens begin with those of
a tree of the same value, the expression is legible, the rest of the tokens are what stands behind,
and if all tokens are deeper than the whole, there are parentheses around it. -/
def Expression.ShownAt (known : List String) (place : Nat) (e : Expression) : Prop :=
  ∀ R ts depth ats rest tree, Behind R → Lexes ((e.displayAt place).toList ++ R) ts →
    levels depth ts = ats ++ rest → Spelled tree ats → (tree.resolve known).same e = true →
    e.Legible ∧ (∃ ts', Lexes R ts' ∧ levels depth ts' = rest) ∧
      (Deep (depth + 1) ats → e.Enclosed place)

theorem Expression.ShownAt.of_zero {known : List String} {e : Expression} (h : e.ShownAt known 0)
    (place : Nat) : e.ShownAt known place := by
  intro R ts depth ats rest tree hR hlexes hlevels hspelled hsame
  rw [toList_displayAt] at hlexes
  split at hlexes
  · next hlt =>
    simp only [List.cons_append, List.append_assoc] at hlexes
    obtain ⟨ts', rfl, hts'⟩ := lexes_leftParen_iff.mp hlexes
    obtain ⟨hlegible, ⟨ts'', hts'', hrest⟩, -⟩ :=
      h _ _ _ _ _ _ hR.rightParen hts' hlevels hspelled hsame
    obtain ⟨ts, rfl, hts⟩ := lexes_rightParen_iff.mp hts''
    exact ⟨hlegible, ⟨ts, hts, hrest⟩, fun _ => .inr hlt⟩
  · obtain ⟨hlegible, hbehind, hdeep⟩ := h _ _ _ _ _ _ hR hlexes hlevels hspelled hsame
    exact ⟨hlegible, hbehind, fun h => .inl ((hdeep h).resolve_right (Nat.not_lt_zero _))⟩

theorem Expression.Resolved.shownAt {known : List String} {e : Expression} (h : e.Resolved known)
    (place : Nat) : e.ShownAt known place := by
  induction e generalizing place with
  | literal value =>
      refine .of_zero (fun R ts depth ats rest tree hR hlexes hlevels hspelled hsame => ?_) place
      obtain ⟨read, rfl, hvalue⟩ := tree_of_same hsame
      obtain ⟨hlegible, hbehind⟩ := Value.legible_of_lexes h hR hlexes hlevels hspelled hvalue
      exact ⟨hlegible, hbehind, fun _ => .inl rfl⟩
  | field path =>
      refine .of_zero (fun R ts depth ats rest tree hR hlexes hlevels hspelled hsame => ?_) place
      have htree := tree_of_same hsame
      dsimp only at htree
      subst htree
      have hshape : Lexes (path.dotted.toList ++ R) ts := hlexes
      rw [toList_dotted, List.append_assoc] at hshape
      obtain ⟨hfirst, hrest⟩ := List.forall_mem_cons.mp h.2.2
      cases hspelled with
      | path hword names level =>
          obtain ⟨hname, ts', hts', hlevels'⟩ := isName_of_lexes hfirst
            (not_wordPart_pointedText hR.delimited.not_wordPart _)
            (noWord_pointedText hR.noWord _) hshape hlevels
          obtain ⟨hnames, hbehind⟩ := isName_of_lexes_pointed hR hrest hts' hlevels'
          exact ⟨List.forall_mem_cons.mpr ⟨hname, hnames⟩, hbehind, fun _ => .inl rfl⟩
  | condition name =>
      refine .of_zero (fun R ts depth ats rest tree hR hlexes hlevels hspelled hsame => ?_) place
      rw [toList_displayAt_condition, List.cons_append] at hlexes
      obtain ⟨ts', rfl, hts'⟩ := lexes_atSign_iff.mp hlexes
      rcases tree_of_same hsame with rfl | rfl
      · cases hspelled with
        | reference _ level =>
            have htail := (List.cons.inj hlevels).2
            obtain ⟨hname, hbehind⟩ :=
              isName_of_lexes h.2 hR.delimited.not_wordPart hR.noWord hts' htail
            exact ⟨hname, hbehind, fun _ => .inl rfl⟩
      · cases hspelled with
        | path _ _ level => exact nomatch (List.cons.inj hlevels).1
  | not operand ih =>
      refine .of_zero (fun R ts depth ats rest tree hR hlexes hlevels hspelled hsame => ?_) place
      rw [toList_displayAt_not, List.append_assoc] at hlexes
      obtain ⟨ts', rfl, hts'⟩ := lexes_not_iff.mp hlexes
      obtain ⟨read, rfl, hoperand⟩ := tree_of_same hsame
      cases hspelled with
      | not hread level =>
          obtain ⟨hhead, htail⟩ := List.cons.inj hlevels
          obtain ⟨hlegible, hbehind, -⟩ := ih h 8 _ _ _ _ _ _ hR hts' htail hread hoperand
          -- The sign itself stands at the depth of the whole, so the whole is not deeper.
          refine ⟨hlegible, hbehind, fun hdeep => ?_⟩
          obtain rfl := (Prod.mk.inj hhead).2
          exact absurd (hdeep _ List.mem_cons_self) (Nat.not_succ_le_self depth)
  | binary op left right ihl ihr =>
      refine .of_zero (fun R ts depth ats rest tree hR hlexes hlevels hspelled hsame => ?_) place
      have hbehind := behind_operator op (plain_displayAt h.2 (op.precedence + 1) hR.plain)
      rw [toList_displayAt_binary] at hlexes
      obtain ⟨a, b, rfl, ha, hb⟩ := tree_of_same hsame
      cases hspelled with
      | @binary _ _ _ ats bts level hats hbts henclosed =>
          simp only [List.append_assoc, List.cons_append] at hlexes hlevels
          obtain ⟨hleft, ⟨ts', hts', hlevels'⟩, hdeepleft⟩ :=
            ihl h.1 op.precedence _ _ _ _ _ _ hbehind hlexes hlevels hats ha
          obtain ⟨ts'', rfl, hts''⟩ := (lexes_operator_iff op).mp hts'
          obtain ⟨hhead, htail⟩ := List.cons.inj hlevels'
          obtain rfl := (Prod.mk.inj hhead).2
          obtain ⟨hright, hend, hdeepright⟩ :=
            ihr h.2 (op.precedence + 1) _ _ _ _ _ _ hR hts'' htail hbts hb
          -- An operand of a comparison is a value or stands deeper than the operator; deeper means
          -- that its print has parentheses.
          refine ⟨⟨hleft, hright, fun hop => ?_⟩, hend, fun hdeep => ?_⟩
          · obtain ⟨hinsideleft, hinsideright⟩ := henclosed hop
            rw [isValue_of_same ha] at hinsideleft
            rw [isValue_of_same hb] at hinsideright
            exact ⟨hinsideleft.elim .inl hdeepleft, hinsideright.elim .inl hdeepright⟩
          · refine absurd (hdeep (.operator op, depth) ?_) (Nat.not_succ_le_self depth)
            simp

/-- The print of an expression that was read is read as an expression of its value exactly if the
expression is legible. -/
theorem parse_display_iff_legible {known : List String} {source : String} {e : Expression}
    (h : Expression.parse known source = .ok e) :
    (∃ e', Expression.parse known e.display = .ok e' ∧ e'.same e = true) ↔ e.Legible := by
  have hresolved := resolved_of_parse h
  constructor
  · rintro ⟨e', hread, hsame⟩
    obtain ⟨ts, tree, hlexes, htree, -, rfl⟩ := parse_iff_lexes.mp hread
    -- Follow the print from left to right along the tokens of the tree that was read.
    obtain ⟨ats, hats, hspelled, -⟩ := htree.laid 0
    have hlevels := hats []
    rw [List.append_nil] at hlevels
    have hprint : Lexes ((e.displayAt 0).toList ++ []) ts := by rwa [List.append_nil]
    exact (hresolved.shownAt 0 _ _ _ _ _ _ behind_nil hprint hlevels hspelled hsame).1
  · intro hlegible
    exact ⟨_, hlegible.parse_display hresolved, e.readBack_same hlegible⟩

/-- An operand in parentheses that is printed without them is not read back. -/
theorem parse_display_visit :
    (∃ e, Expression.parse ["adult"] "@adult and not (visit.kind == 'urgent' or staff)" = .ok e ∧
      ∃ e', Expression.parse ["adult"] e.display = .ok e' ∧ e'.same e = true) ∧
    ∃ e, Expression.parse [] "(not a) == b" = .ok e ∧
      ¬ ∃ e', Expression.parse [] e.display = .ok e' ∧ e'.same e = true := by
  have hvisit : Expression.parse ["adult"] "@adult and not (visit.kind == 'urgent' or staff)" =
      .ok (.binary .and (.condition "adult")
        (.not (.binary .or (.binary .equal (.field ⟨"visit", ["kind"]⟩) (.literal (.text "urgent")))
          (.field ⟨"staff", []⟩)))) := by with_unfolding_all rfl
  have hnegated : Expression.parse [] "(not a) == b" =
      .ok (.binary .equal (.not (.field ⟨"a", []⟩)) (.field ⟨"b", []⟩)) := by with_unfolding_all rfl
  exact ⟨⟨_, hvisit, (parse_display_iff_legible hvisit).mpr (by decide +kernel)⟩,
    ⟨_, hnegated, fun h => absurd ((parse_display_iff_legible hnegated).mp h) (by decide +kernel)⟩⟩

end Questionnaire
