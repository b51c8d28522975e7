import Questionnaire.Proofs.Expression.Nesting

/-!
# Blanks between tokens

The reader takes a token off a text just where the token is written and the character behind does not
go on with it (`scan_tokenText`, `scan_of_tokenText`). So the tokens of a text are those that it is
tiled by, with blanks between them (`tokensFrom_eq_ok_iff`). Since no blank goes on with a token, more
blanks between the tokens, in front of them and behind them change neither the tokens nor what the
text is read as (`tokens_spread`).
-/

namespace Questionnaire

/-! ## How tokens are written -/

/-- The signs that are never a part of a longer one. -/
def closedSigns : List (List Char × Token) :=
  [(['('], .leftParen), ([')'], .rightParen), (['@'], .atSign),
    (['=', '=', '='], .operator .equal), (['!', '=', '='], .operator .notEqual),
    (['>', '='], .operator .greaterOrEqual), (['<', '='], .operator .lessOrEqual),
    (['&', '&'], .operator .and), (['|', '|'], .operator .or)]

/-- The signs that an equals sign makes a longer one of. -/
def openSigns : List (List Char × Token) :=
  [(['=', '='], .operator .equal), (['!', '='], .operator .notEqual), (['!'], .notSign),
    (['>'], .operator .greater), (['<'], .operator .less)]

/-- How a token is written, and by which characters right behind it what is written would go on. -/
inductive TokenText : Token → List Char → (Char → Bool) → Prop
  | closed {token : Token} {text : List Char} (h : (text, token) ∈ closedSigns) :
      TokenText token text fun _ => false
  | opened {token : Token} {text : List Char} (h : (text, token) ∈ openSigns) :
      TokenText token text (· == '=')
  | point : TokenText .point ['.'] Char.isDigit
  | number {c : Char} {w : List Char} {d : DecimalNotation}
      (hc : c.isDigit = true ∨ (c = '.' ∨ c = '-') ∧ startsWithDigit w = true)
      (hw : ∀ e ∈ w, isNumberPart e = true) (hd : DecimalNotation.ofChars? (c :: w) = some d) :
      TokenText (.number d.nearest) (c :: w) isNumberPart
  | text {quote : Char} {value used : List Char} (hquote : quote = '\'' ∨ quote = '"')
      (h : textLiteral? quote used = some (value, used, [])) :
      TokenText (.text (String.ofList value)) (quote :: used) fun _ => false
  | word {c : Char} {w : List Char} (hc : isWordStart c = true)
      (hw : ∀ e ∈ w, isWordPart e = true) : TokenText (wordToken (c :: w)) (c :: w) isWordPart

/-- A text literal ends with its quote, whatever stands behind it. -/
theorem textLiteral?_used {quote : Char} (hquote : quote ≠ '\\')
    {input value used rest : List Char} (h : textLiteral? quote input = some (value, used, rest))
    (rest' : List Char) : textLiteral? quote (used ++ rest') = some (value, used, rest') := by
  fun_induction textLiteral? quote input generalizing value used rest with
  | case1 => cases h
  | case2 c tail ih =>
      obtain ⟨⟨v, u, r⟩, hr, heq⟩ := Option.map_eq_some_iff.mp h
      obtain ⟨rfl, rfl, rfl⟩ := by simpa only [Prod.mk.injEq] using heq
      simp [textLiteral?, ih hr]
  | case3 tail hescape =>
      obtain ⟨rfl, rfl, rfl⟩ := by simpa only [Option.some.injEq, Prod.mk.injEq] using h
      rw [List.singleton_append, textLiteral?, if_pos rfl]
      exact fun _ _ hbackslash _ => hquote hbackslash
  | case4 c tail hescape hne ih =>
      obtain ⟨⟨v, u, r⟩, hr, heq⟩ := Option.map_eq_some_iff.mp h
      obtain ⟨rfl, rfl, rfl⟩ := by simpa only [Prod.mk.injEq] using heq
      rw [List.cons_append, textLiteral?, if_neg hne, ih hr]
      · rfl
      · -- A backslash that escapes nothing ends the text, so no quote comes behind it.
        rintro d used rfl -
        cases tail with
        | nil => cases hr
        | cons d tail => exact (hescape d tail rfl rfl).elim

theorem isBlank_of_isNumberPart {c : Char} (h : isNumberPart c = true) : Text.isBlank c = false := by
  simp only [isNumberPart, Bool.or_eq_true, beq_iff_eq] at h
  rcases h with h | rfl
  · exact isBlank_of_isDigit h
  · decide

theorem scanText_of_textLiteral? {quote : Char} {input value used rest : List Char}
    (h : textLiteral? quote input = some (value, used, rest)) :
    ∃ s, scanText quote input = .ok s ∧ s.token = .text (String.ofList value) ∧
      s.text = quote :: used ∧ s.rest = rest := by
  unfold scanText
  split
  · next value' used' rest' h' =>
    obtain ⟨rfl, rfl, rfl⟩ : value = value' ∧ used = used' ∧ rest = rest' := by
      simpa only [Option.some.injEq, Prod.mk.injEq] using h.symm.trans h'
    exact ⟨_, rfl, rfl, rfl, rfl⟩
  · next h' => exact nomatch h.symm.trans h'

theorem startsWithDigit_takeWhile (cs : List Char) :
    startsWithDigit (cs.takeWhile isNumberPart) = startsWithDigit cs := by
  cases cs with
  | nil => rfl
  | cons c rest =>
      by_cases hc : isNumberPart c = true
      · rw [List.takeWhile_cons_of_pos hc]
        rfl
      · rw [List.takeWhile_cons_of_neg hc]
        simp only [isNumberPart, Bool.or_eq_true, not_or] at hc
        simp [startsWithDigit, hc.1]

/-- No blank goes on with a token. -/
theorem TokenText.isBlank_of_continues {token : Token} {text : List Char} {continues : Char → Bool}
    (h : TokenText token text continues) {c : Char} (hc : continues c = true) :
    Text.isBlank c = false := by
  cases h with
  | closed _ | text _ _ => exact nomatch hc
  | opened _ =>
      rw [eq_of_beq hc]
      decide
  | point => exact isBlank_of_isDigit hc
  | number _ _ _ => exact isBlank_of_isNumberPart hc
  | word _ _ => exact isBlank_of_isWordPart hc

/-- A token begins with a character that is not blank. -/
theorem TokenText.exists_cons {token : Token} {text : List Char} {continues : Char → Bool}
    (h : TokenText token text continues) : ∃ c used, text = c :: used ∧ Text.isBlank c = false := by
  have hsigns : ∀ sign ∈ closedSigns ++ openSigns,
      ∃ c used, sign.1 = c :: used ∧ Text.isBlank c = false := by
    simp only [closedSigns, openSigns, List.cons_append, List.nil_append, List.forall_mem_cons,
      List.not_mem_nil, false_implies, implies_true, and_true]
    refine ⟨?_, ?_, ?_, ?_, ?_, ?_, ?_, ?_, ?_, ?_, ?_, ?_, ?_, ?_⟩ <;>
      exact ⟨_, _, rfl, by decide⟩
  cases h with
  | closed h => exact hsigns _ (List.mem_append_left _ h)
  | opened h => exact hsigns _ (List.mem_append_right _ h)
  | point => exact ⟨_, _, rfl, by decide⟩
  | number hc _ _ =>
      refine ⟨_, _, rfl, ?_⟩
      rcases hc with hc | ⟨rfl | rfl, -⟩
      · exact isBlank_of_isDigit hc
      · decide
      · decide
  | text hquote _ =>
      refine ⟨_, _, rfl, ?_⟩
      rcases hquote with rfl | rfl <;> decide
  | word hc _ => exact ⟨_, _, rfl, isBlank_of_isWordStart hc⟩

/-- What is taken off a text is written as its token is, and what stands behind it does not go on. -/
theorem scan_tokenText {c : Char} {rest : List Char} {s : Scanned (c :: rest)}
    (hs : scan c rest = .ok s) :
    ∃ continues, TokenText s.token s.text continues ∧ ∀ d ∈ s.rest.head?, continues d = false := by
  unfold scan at hs
  split at hs
  case h_1 | h_2 | h_3 | h_4 | h_6 | h_9 | h_11 | h_13 | h_14 =>
    cases hs
    exact ⟨_, .closed (by simp [closedSigns, Scanned.single]), fun _ _ => rfl⟩
  case h_5 hlonger | h_7 hlonger | h_8 hlonger | h_10 hlonger | h_12 hlonger =>
    cases hs
    refine ⟨_, .opened (by simp [openSigns, Scanned.single]), ?_⟩
    intro d hd
    refine beq_eq_false_iff_ne.mpr ?_
    rintro rfl
    obtain ⟨tail, rfl⟩ := List.head?_eq_some_iff.mp hd
    exact hlonger tail rfl
  case h_15 | h_16 =>
    unfold scanText at hs
    split at hs
    · next value used tail hliteral =>
      cases hs
      have hclosed := textLiteral?_used (by decide) hliteral []
      rw [List.append_nil] at hclosed
      exact ⟨_, .text (by decide) hclosed, fun _ _ => rfl⟩
    · cases hs
  case h_17 =>
    split at hs
    · next hpoint =>
      obtain ⟨rfl, hdigit⟩ := hpoint
      cases hs
      refine ⟨_, .point, fun d hd => ?_⟩
      obtain ⟨tail, rfl⟩ := List.head?_eq_some_iff.mp hd
      simpa [startsWithDigit] using hdigit
    · split at hs
      · next hpoint hnumber =>
        unfold scanNumber at hs
        dsimp only at hs
        split at hs
        · next d hd =>
          cases hs
          refine ⟨_, .number ?_ (fun _ => List.mem_takeWhile_imp) hd, Text.head?_dropWhile⟩
          rw [startsWithDigit_takeWhile]
          rcases hnumber with hdigit | rfl | ⟨rfl, hdigit⟩
          · exact .inl hdigit
          · exact .inr ⟨.inl rfl, by simpa using hpoint⟩
          · exact .inr ⟨.inr rfl, hdigit⟩
        · cases hs
      · split at hs
        · next hc =>
          cases hs
          exact ⟨_, .word hc fun _ => List.mem_takeWhile_imp, Text.head?_dropWhile⟩
        · cases hs

theorem scan_of_tokenText {token : Token} {c : Char} {used rest : List Char} {continues : Char → Bool}
    (h : TokenText token (c :: used) continues) (hrest : ∀ d ∈ rest.head?, continues d = false) :
    ∃ s, scan c (used ++ rest) = .ok s ∧ s.token = token ∧ s.text = c :: used ∧ s.rest = rest := by
  cases h with
  | closed h =>
      simp only [closedSigns, List.mem_cons, Prod.mk.injEq, List.cons.injEq, List.not_mem_nil,
        or_false] at h
      rcases h with h | h | h | h | h | h | h | h | h <;> obtain ⟨⟨rfl, rfl⟩, rfl⟩ := h <;>
        exact ⟨_, rfl, rfl, rfl, rfl⟩
  | opened h =>
      have hend : ∀ tail, rest ≠ '=' :: tail := by
        rintro tail rfl
        exact absurd (hrest '=' rfl) (by decide)
      simp only [openSigns, List.mem_cons, Prod.mk.injEq, List.cons.injEq, List.not_mem_nil,
        or_false] at h
      rcases h with h | h | h | h | h <;> obtain ⟨⟨rfl, rfl⟩, rfl⟩ := h <;>
        simp [scan, Scanned.single, hend]
  | point =>
      have hdigit : startsWithDigit rest = false := by
        cases rest with
        | nil => rfl
        | cons d rest => exact hrest d rfl
      rw [List.nil_append, scan_of_not_sign (by decide), if_pos (by simp [hdigit])]
      exact ⟨_, rfl, rfl, rfl, rfl⟩
  | number hc hw hd =>
      rw [scan_number (hc.imp_right (And.imp_right startsWithDigit_append)), scanNumber,
        takeWhile_append_of_head hw hrest]
      simp [hd, Scanned.run, takeWhile_append_of_head hw hrest, dropWhile_append_of_head hw hrest]
  | text hquote h =>
      have hbackslash : c ≠ '\\' := by
        rintro rfl
        exact absurd hquote (by decide)
      have hscan : scan c (used ++ rest) = scanText c (used ++ rest) := by
        rcases hquote with rfl | rfl <;> rfl
      rw [hscan]
      exact scanText_of_textLiteral? (textLiteral?_used hbackslash h rest)
  | word hc hw =>
      refine ⟨_, scan_word hc _, ?_⟩
      simp [Scanned.run, takeWhile_append_of_head hw hrest, dropWhile_append_of_head hw hrest]

/-! ## How tokens are laid out -/

/-- A text, from a position on, as its tokens with the blanks between them. Nothing that stands behind
a token goes on with it. -/
inductive Tiles : Nat → List Lexeme → List Char → Prop
  | last {position : Nat} {gap : List Char} (hgap : ∀ c ∈ gap, Text.isBlank c = true) :
      Tiles position [] gap
  | token {position : Nat} {gap rest : List Char} {lexeme : Lexeme} {lexemes : List Lexeme}
      {continues : Char → Bool} (hgap : ∀ c ∈ gap, Text.isBlank c = true)
      (hposition : lexeme.position = position + byteLength gap)
      (htoken : TokenText lexeme.token lexeme.text continues)
      (hend : ∀ d ∈ rest.head?, continues d = false)
      (hrest : Tiles (lexeme.position + byteLength lexeme.text) lexemes rest) :
      Tiles position (lexeme :: lexemes) (gap ++ (lexeme.text ++ rest))

theorem Tiles.blank {position : Nat} {c : Char} {lexemes : List Lexeme} {rest : List Char}
    (hc : Text.isBlank c = true) (h : Tiles (position + c.utf8Size) lexemes rest) :
    Tiles position lexemes (c :: rest) := by
  cases h with
  | last hgap => exact .last (List.forall_mem_cons.mpr ⟨hc, hgap⟩)
  | @token _ gap _ _ _ _ hgap hposition htoken hend hrest =>
      rw [← List.cons_append]
      refine .token (List.forall_mem_cons.mpr ⟨hc, hgap⟩) ?_ htoken hend hrest
      rw [hposition, Nat.add_assoc]
      rfl

theorem tokensFrom_gap {gap : List Char} (hgap : ∀ c ∈ gap, Text.isBlank c = true) (position : Nat)
    (cs : List Char) : tokensFrom position (gap ++ cs) = tokensFrom (position + byteLength gap) cs := by
  induction gap generalizing position with
  | nil => rfl
  | cons c gap ih =>
      obtain ⟨hc, hgap⟩ := List.forall_mem_cons.mp hgap
      rw [List.cons_append, tokensFrom, if_pos hc, ih hgap, Nat.add_assoc]
      rfl

/-- The tokens of a text are those that it is laid out as. -/
theorem tokensFrom_eq_ok_iff {position : Nat} {cs : List Char} {lexemes : List Lexeme} :
    tokensFrom position cs = .ok lexemes ↔ Tiles position lexemes cs := by
  constructor
  · intro h
    fun_induction tokensFrom position cs generalizing lexemes with
    | case1 =>
        cases h
        exact .last (List.forall_mem_nil _)
    | case2 position c rest hc ih => exact (ih h).blank hc
    | case3 | case4 => cases h
    | case5 position c rest hc s hs lexemes hlexemes ih =>
        cases h
        obtain ⟨continues, htoken, hend⟩ := scan_tokenText hs
        have hrest : Tiles (position + byteLength s.text) lexemes s.rest := ih hlexemes
        have htiles := @Tiles.token position [] s.rest ⟨s.token, s.text, position⟩ lexemes continues
          (List.forall_mem_nil _) rfl htoken hend hrest
        rwa [List.nil_append, s.splits] at htiles
  · intro h
    induction h with
    | @last position gap hgap =>
        have hgap := tokensFrom_gap hgap position []
        rwa [List.append_nil, tokensFrom] at hgap
    | @token position gap rest lexeme lexemes continues hgap hposition htoken hend _ ih =>
        obtain ⟨c, used, htext, hc⟩ := htoken.exists_cons
        rw [htext] at htoken
        obtain ⟨s, hs, hsame, hused, hrest⟩ := scan_of_tokenText htoken hend
        rw [tokensFrom_gap hgap, ← hposition, htext, List.cons_append, tokensFrom,
          if_neg (by simp [hc]), hs]
        dsimp only
        rw [hused, ← htext, hrest, ih, hsame]

/-! ## Blanks put in -/

/-- Blanks are put in where there are none but blanks. -/
structure Widens (gap gap' : List Char) : Prop where
  sublist : gap.Sublist gap'
  blank : ∀ c ∈ gap', Text.isBlank c = true

/-- Blanks are put in between the tokens of a text, in front of them and behind them: how the tokens
are written, the text, and the text with the blanks. -/
inductive Spread : List (List Char) → List Char → List Char → Prop
  | last {gap gap' : List Char} (hgap : Widens gap gap') : Spread [] gap gap'
  | token {gap gap' text rest rest' : List Char} {texts : List (List Char)}
      (hgap : Widens gap gap') (hrest : Spread texts rest rest') :
      Spread (text :: texts) (gap ++ (text ++ rest)) (gap' ++ (text ++ rest'))

theorem Widens.refl {gap : List Char} (h : ∀ c ∈ gap, Text.isBlank c = true) : Widens gap gap :=
  ⟨List.Sublist.refl gap, h⟩

theorem Tiles.spread_self {position : Nat} {lexemes : List Lexeme} {cs : List Char}
    (h : Tiles position lexemes cs) : Spread (lexemes.map (·.text)) cs cs := by
  induction h with
  | last hgap => exact .last (.refl hgap)
  | token hgap _ _ _ _ ih => exact .token (.refl hgap) ih

/-- Before the text and before the wider one the next token, if any, begins with the same character. -/
theorem Spread.head {texts : List (List Char)} {cs cs' : List Char} (h : Spread texts cs cs')
    (hne : ∀ text ∈ texts, text ≠ []) :
    ∀ d ∈ cs'.head?, Text.isBlank d = true ∨ d ∈ cs.head? := by
  intro d hd
  cases h with
  | last hgap => exact .inl (hgap.blank d (List.mem_of_head? hd))
  | @token gap gap' text rest rest' texts hgap _ =>
      cases gap' with
      | cons first gap' =>
          obtain rfl : first = d := Option.some.inj hd
          exact .inl (hgap.blank first (List.mem_cons_self ..))
      | nil =>
          obtain rfl := List.sublist_nil.mp hgap.sublist
          obtain ⟨first, used, htext⟩ :=
            List.exists_cons_of_ne_nil (hne text (List.mem_cons_self ..))
          rw [htext] at hd ⊢
          exact .inr hd

theorem Tiles.text_ne_nil {position : Nat} {lexemes : List Lexeme} {cs : List Char}
    (h : Tiles position lexemes cs) : ∀ text ∈ lexemes.map (·.text), text ≠ [] := by
  induction h with
  | last _ => exact nofun
  | token _ _ htoken _ _ ih =>
      obtain ⟨c, used, htext, -⟩ := htoken.exists_cons
      exact List.forall_mem_cons.mpr ⟨by simp [htext], ih⟩

/-- The first token of a text stands behind the blanks that the text begins with. -/
theorem Tiles.tail {position : Nat} {lexeme : Lexeme} {lexemes : List Lexeme} {gap rest : List Char}
    (hgap : ∀ c ∈ gap, Text.isBlank c = true)
    (h : Tiles position (lexeme :: lexemes) (gap ++ (lexeme.text ++ rest))) :
    ∃ continues, TokenText lexeme.token lexeme.text continues ∧
      (∀ d ∈ rest.head?, continues d = false) ∧
      Tiles (lexeme.position + byteLength lexeme.text) lexemes rest := by
  generalize hcs : gap ++ (lexeme.text ++ rest) = cs at h
  cases h with
  | @token _ gap' rest' _ _ continues hgap' _ htoken hend hrest =>
      obtain ⟨c, used, htext, hc⟩ := htoken.exists_cons
      have hhead (tail : List Char) : ∀ d ∈ (lexeme.text ++ tail).head?, Text.isBlank d = false := by
        intro d hd
        rw [htext] at hd
        exact Option.some.inj hd ▸ hc
      obtain rfl : gap = gap' := by
        rw [← takeWhile_append_of_head hgap (hhead rest), hcs,
          takeWhile_append_of_head hgap' (hhead rest')]
      obtain rfl := List.append_cancel_left (List.append_cancel_left hcs)
      exact ⟨continues, htoken, hend, hrest⟩

/-- With more blanks between them there are the same tokens. -/
theorem Tiles.widen {position : Nat} {lexemes : List Lexeme} {cs cs' : List Char}
    (h : Tiles position lexemes cs) (hspread : Spread (lexemes.map (·.text)) cs cs')
    (position' : Nat) :
    ∃ lexemes', Tiles position' lexemes' cs' ∧
      lexemes'.map (fun l => (l.token, l.text)) = lexemes.map fun l => (l.token, l.text) := by
  generalize htexts : lexemes.map (·.text) = texts at hspread
  induction hspread generalizing position lexemes position' with
  | last hgap =>
      obtain rfl := List.map_eq_nil_iff.mp htexts
      exact ⟨[], .last hgap.blank, rfl⟩
  | @token gap gap' text rest rest' texts hgap hrest ih =>
      obtain ⟨lexeme, lexemes, rfl, rfl, rfl⟩ := List.map_eq_cons_iff.mp htexts
      obtain ⟨continues, htoken, hend, htiles⟩ := h.tail fun c hc =>
        hgap.blank c (hgap.sublist.subset hc)
      obtain ⟨lexemes', htiles', hsame⟩ := ih htiles
        (position' + byteLength gap' + byteLength lexeme.text) rfl
      refine ⟨⟨lexeme.token, lexeme.text, position' + byteLength gap'⟩ :: lexemes', ?_, ?_⟩
      · refine .token hgap.blank rfl htoken ?_ htiles'
        intro d hd
        rcases hrest.head htiles.text_ne_nil d hd with hblank | hd
        · refine Bool.eq_false_iff.mpr fun hcontinues => ?_
          exact Bool.false_ne_true ((htoken.isBlank_of_continues hcontinues).symm.trans hblank)
        · exact hend d hd
      · rw [List.map_cons, List.map_cons, hsame]

/-- Tokens apart from their positions decide what an expression is read as. -/
theorem parse_iff_of_tokens {source source' : String} {lexemes lexemes' : List Lexeme}
    (h : tokens source = .ok lexemes) (h' : tokens source' = .ok lexemes')
    (hsame : lexemes'.map (·.token) = lexemes.map (·.token)) (known : List String) (e : Expression) :
    Expression.parse known source' = .ok e ↔ Expression.parse known source = .ok e := by
  have hlexes (ts : List Token) : Lexes source'.toList ts ↔ Lexes source.toList ts := by
    rw [lexes_iff 0, lexes_iff 0]
    unfold tokens at h h'
    simp only [h, h', Except.ok.injEq, exists_eq_left', hsame]
  simp only [parse_iff_lexes, hlexes]

/-- Blanks between tokens do not matter. A text that has tokens may be widened by blanks in front of
the first token, between any two of them and behind the last: the tokens are the same, and so is
what the text is read as, if it is an expression, whatever conditions are known. -/
theorem tokens_spread {source : String} {lexemes : List Lexeme} (h : tokens source = .ok lexemes) :
    Spread (lexemes.map (·.text)) source.toList source.toList ∧
    ∀ wider : String, Spread (lexemes.map (·.text)) source.toList wider.toList →
      (∃ lexemes', tokens wider = .ok lexemes' ∧
        lexemes'.map (fun l => (l.token, l.text)) = lexemes.map fun l => (l.token, l.text)) ∧
      ∀ known e, Expression.parse known wider = .ok e ↔ Expression.parse known source = .ok e := by
  have htiles : Tiles 0 lexemes source.toList := tokensFrom_eq_ok_iff.mp h
  refine ⟨htiles.spread_self, fun wider hspread => ?_⟩
  obtain ⟨lexemes', htiles', hsame⟩ := htiles.widen hspread 0
  have h' : tokens wider = .ok lexemes' := tokensFrom_eq_ok_iff.mpr htiles'
  have htokens := congrArg (List.map Prod.fst) hsame
  simp only [List.map_map, Function.comp_def] at htokens
  exact ⟨⟨lexemes', h', hsame⟩, parse_iff_of_tokens h h' htokens⟩

/-- Nothing stands between the tokens of the one text; in the other there are blanks of several kinds
wherever there can be any. -/
theorem tokens_spread_crowded :
    (∃ lexemes', tokens " name  == 'x'\nand\t! done\u00a0" = .ok lexemes' ∧
      lexemes'.map (fun l => (l.token, l.text)) =
        [(.word "name", ['n', 'a', 'm', 'e']), (.operator .equal, ['=', '=']),
          (.text "x", ['\'', 'x', '\'']), (.operator .and, ['a', 'n', 'd']), (.notSign, ['!']),
          (.word "done", ['d', 'o', 'n', 'e'])]) ∧
      ∀ known e, Expression.parse known " name  == 'x'\nand\t! done\u00a0" = .ok e ↔
        Expression.parse known "name=='x'and!done" = .ok e := by
  have h : tokens "name=='x'and!done" = .ok
      [⟨.word "name", ['n', 'a', 'm', 'e'], 0⟩, ⟨.operator .equal, ['=', '='], 4⟩,
        ⟨.text "x", ['\'', 'x', '\''], 6⟩, ⟨.operator .and, ['a', 'n', 'd'], 9⟩,
        ⟨.notSign, ['!'], 12⟩, ⟨.word "done", ['d', 'o', 'n', 'e'], 13⟩] := by decide +kernel
  refine (tokens_spread h).2 _ ?_
  have hwidens (gap : List Char) (hgap : gap.all Text.isBlank = true) : Widens [] gap :=
    ⟨List.nil_sublist gap, List.all_eq_true.mp hgap⟩
  exact .token (hwidens [' '] rfl) (.token (hwidens [' ', ' '] rfl) (.token (hwidens [' '] rfl)
    (.token (hwidens ['\n'] rfl) (.token (hwidens ['\t'] rfl) (.token (hwidens [' '] rfl)
      (.last (hwidens ['\u00a0'] rfl)))))))

end Questionnaire
