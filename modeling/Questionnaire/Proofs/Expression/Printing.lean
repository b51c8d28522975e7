import Questionnaire.Proofs.Expression.Legible

/-!
# The tokens of a print

A legible expression in print has the tokens that its structure suggests (`Expression.tokensAt`),
whatever text follows that is delimited from it (`Expression.Legible.printsAt`). These tokens are a
phrase whose tree is the expression (`Expression.Legible.phrases`): the places of the printer are
matched with the phrases of the grammar.
-/

namespace Questionnaire

open Grammar

/-- Parentheses around tokens, where `parenthesise` puts them around a text. -/
def enclose (own place : Nat) (ts : List Token) : List Token :=
  if own < place then .leftParen :: ts ++ [.rightParen] else ts

/-- The token of a value. -/
def Value.tokens : Value → List Token
  | .number x => [.number x]
  | .bool b => [.word (if b then "true" else "false")]
  | .text s => [.text s]
  | .list _ => []
  | .null => [.word "null"]

/-- The tokens of an expression at a place that asks for a precedence. -/
def Expression.tokensAt (place : Nat) (e : Expression) : List Token :=
  enclose e.precedence place <|
    match e with
    | .literal value => value.tokens
    | .field path => .word path.first :: pointedNames path.rest
    | .condition name => [.atSign, .word name]
    | .not operand => .notSign :: operand.tokensAt 8
    | .binary op left right =>
      left.tokensAt op.precedence ++ .operator op :: right.tokensAt (op.precedence + 1)

theorem enclose_zero (own : Nat) (ts : List Token) : enclose own 0 ts = ts :=
  if_neg (Nat.not_lt_zero own)

theorem tokensAt_eq (place : Nat) (e : Expression) :
    e.tokensAt place = enclose e.precedence place (e.tokensAt 0) := by
  rw [Expression.tokensAt.eq_def place, Expression.tokensAt.eq_def 0, enclose_zero]

/-! ## The text of each part -/

/-- What follows a part of a print: nothing, a blank or a closing parenthesis. -/
def Delimited (R : List Char) : Prop :=
  ∀ c ∈ R.head?, c = ' ' ∨ c = ')'

theorem delimited_nil : Delimited [] := nofun

theorem delimited_cons {c : Char} {R : List Char} (h : c = ' ' ∨ c = ')') : Delimited (c :: R) := by
  intro d hd
  exact Option.some.inj hd ▸ h

theorem Delimited.not_wordPart {R : List Char} (h : Delimited R) :
    ∀ c ∈ R.head?, isWordPart c = false := by
  intro c hc
  rcases h c hc with rfl | rfl <;> decide

theorem Delimited.not_numberPart {R : List Char} (h : Delimited R) :
    ∀ c ∈ R.head?, isNumberPart c = false := by
  intro c hc
  rcases h c hc with rfl | rfl <;> decide

/-- The names of a path behind the first, each with its point. -/
def pointedText (names : List String) : List Char :=
  names.flatMap fun name => '.' :: name.toList

theorem pointedText_cons (name : String) (names : List String) (R : List Char) :
    pointedText (name :: names) ++ R = '.' :: (name.toList ++ (pointedText names ++ R)) := by
  simp [pointedText]

theorem toList_dotted (path : FieldPath) :
    path.dotted.toList = path.first.toList ++ pointedText path.rest := by
  obtain ⟨first, rest⟩ := path
  show (String.intercalate "." (first :: rest)).toList = _
  induction rest generalizing first with
  | nil => simp [pointedText]
  | cons name rest ih =>
      rw [String.intercalate_cons_cons, String.toList_append, String.toList_append, ih name]
      simp [pointedText]

theorem not_wordPart_pointedText {R : List Char} (h : ∀ c ∈ R.head?, isWordPart c = false)
    (names : List String) : ∀ c ∈ (pointedText names ++ R).head?, isWordPart c = false := by
  cases names with
  | nil => exact h
  | cons name names =>
      intro c hc
      obtain rfl : '.' = c := Option.some.inj hc
      decide

theorem toList_displayAt (place : Nat) (e : Expression) :
    (e.displayAt place).toList =
      if e.precedence < place then '(' :: (e.displayAt 0).toList ++ [')']
      else (e.displayAt 0).toList := by
  have hzero : ∀ own text, parenthesise own 0 text = text := fun own _ =>
    if_neg (Nat.not_lt_zero own)
  rw [Expression.displayAt.eq_def place, Expression.displayAt.eq_def 0, hzero, parenthesise]
  split <;> simp

theorem toList_displayAt_condition (name : String) :
    ((Expression.condition name).displayAt 0).toList = '@' :: name.toList := by
  simp [Expression.displayAt, parenthesise]

theorem toList_displayAt_not (operand : Expression) :
    ((Expression.not operand).displayAt 0).toList =
      "not ".toList ++ (operand.displayAt 8).toList := by
  simp [Expression.displayAt, parenthesise]

theorem toList_displayAt_binary (op : Operator) (left right : Expression) :
    ((Expression.binary op left right).displayAt 0).toList =
      (left.displayAt op.precedence).toList ++
        ' ' :: (op.symbol.toList ++ ' ' :: (right.displayAt (op.precedence + 1)).toList) := by
  simp [Expression.displayAt, parenthesise]

/-! ## The tokens of each part -/

section

variable {R : List Char} {ts : List Token}

theorem wordToken_toList {name : String} (hkeyword : name ∉ keywords)
    (hdollar : ∀ c ∈ name.toList.head?, c ≠ '$') : wordToken name.toList = .word name := by
  have hdrop : name.toList.dropWhile (· == '$') = name.toList := by
    cases hname : name.toList with
    | nil => rfl
    | cons c rest => exact List.dropWhile_cons_of_neg (by simpa using hdollar c (by simp [hname]))
  unfold wordToken
  rw [String.ofList_toList, hdrop, String.ofList_toList]
  split
  case h_5 => rfl
  all_goals exact absurd (by decide) hkeyword

theorem IsName.eq_cons {name : String} (h : IsName name) :
    ∃ c rest, name.toList = c :: rest ∧ isWordStart c = true ∧ ∀ d ∈ rest, isWordPart d = true := by
  obtain ⟨hstart, hparts, -⟩ := h
  cases hname : name.toList with
  | nil => simp [hname] at hstart
  | cons c rest =>
      rw [hname] at hstart hparts
      have hc : (Text.isLetter c || c == '_') = true := by simpa using hstart
      exact ⟨c, rest, rfl, by rw [isWordStart, hc, Bool.true_or], fun d hd => hparts d (.tail _ hd)⟩

theorem IsName.lexes_iff {name : String} (h : IsName name)
    (hR : ∀ c ∈ R.head?, isWordPart c = false) :
    Lexes (name.toList ++ R) ts ↔ ∃ ts', ts = .word name :: ts' ∧ Lexes R ts' := by
  have htoken : wordToken name.toList = .word name := by
    refine wordToken_toList h.not_keyword ?_
    rintro c hc rfl
    exact absurd (h.parts '$' (List.mem_of_head? hc)) (by decide)
  obtain ⟨c, rest, hname, hc, hrest⟩ := h.eq_cons
  rw [hname] at htoken ⊢
  rw [lexes_word_iff hc hrest hR, htoken]

theorem IsName.not_startsWithDigit {name : String} (h : IsName name) (R : List Char) :
    startsWithDigit (name.toList ++ R) = false := by
  obtain ⟨c, rest, hname, hc, -⟩ := h.eq_cons
  rw [hname]
  show c.isDigit = false
  by_contra hdigit
  rw [Bool.not_eq_false] at hdigit
  simp [not_isWordStart_of_isDigit hdigit] at hc

/-- The names behind the first of a path. -/
theorem lexes_pointedText {names : List String} (h : ∀ name ∈ names, IsName name)
    (hR : ∀ c ∈ R.head?, isWordPart c = false) (hts : Lexes R ts) :
    Lexes (pointedText names ++ R) (pointedNames names ++ ts) := by
  induction names with
  | nil => exact hts
  | cons name names ih =>
      have hname := h name List.mem_cons_self
      have hrest := ih fun other hother => h other (.tail _ hother)
      rw [pointedText_cons]
      exact (lexes_point_iff (hname.not_startsWithDigit _)).mpr ⟨_, rfl,
        (hname.lexes_iff (not_wordPart_pointedText hR names)).mpr ⟨_, rfl, hrest⟩⟩

theorem textLiteral?_of_plain {s : List Char} (h : ∀ c ∈ s, c ≠ '\'' ∧ c ≠ '\\') :
    textLiteral? '\'' (s ++ '\'' :: R) = some (s, s ++ ['\''], R) := by
  induction s with
  | nil => simp [textLiteral?]
  | cons c s ih =>
      obtain ⟨hquote, hslash⟩ := h c List.mem_cons_self
      rw [List.cons_append, textLiteral?.eq_def]
      split
      · next heq => exact nomatch heq
      · next heq => exact absurd (List.cons.inj heq).1 hslash
      · next heq =>
        obtain ⟨rfl, rfl⟩ := List.cons.inj heq
        simp [hquote, ih fun d hd => h d (.tail _ hd)]

theorem Value.lexes_display {value : Value} (h : value.Legible) (hR : Delimited R)
    (hts : Lexes R ts) : Lexes (value.display.toList ++ R) (value.readBack.tokens ++ ts) := by
  cases value with
  | number x =>
      cases x with
      | infinite _ => exact absurd h id
      | finite x =>
          exact (lexes_rounded_iff (Binary64.ofText?_rounded h) hR.not_numberPart).mpr
            ⟨_, rfl, hts⟩
  | bool b =>
      cases b
      · exact ((by decide +kernel : IsName "false").lexes_iff hR.not_wordPart).mpr
          ⟨_, rfl, hts⟩
      · exact ((by decide +kernel : IsName "true").lexes_iff hR.not_wordPart).mpr
          ⟨_, rfl, hts⟩
  | text s =>
      have hread := textLiteral?_of_plain (R := R) h
      have hshape : (Value.text s).display.toList ++ R = '\'' :: (s.toList ++ '\'' :: R) := by
        simp [display]
      rw [hshape, lexes_text_iff]
      exact ⟨_, _, _, _, hread, by simp [readBack, tokens], hts⟩
  | list _ => exact absurd h id
  | null =>
      exact ((by decide +kernel : IsName "null").lexes_iff hR.not_wordPart).mpr
        ⟨_, rfl, hts⟩

/-- In print at a place, in front of any delimited text, an expression has the tokens it should. -/
def Expression.PrintsAt (place : Nat) (e : Expression) : Prop :=
  ∀ R ts, Delimited R → Lexes R ts →
    Lexes ((e.displayAt place).toList ++ R) (e.readBack.tokensAt place ++ ts)

/-- Parentheses in print are parentheses among the tokens. -/
theorem Expression.PrintsAt.of_zero {e : Expression} (h : e.PrintsAt 0) (place : Nat) :
    e.PrintsAt place := by
  intro R ts hR hts
  rw [toList_displayAt, tokensAt_eq, precedence_readBack, enclose]
  split
  · have hclose := lexes_rightParen_iff.mpr ⟨ts, rfl, hts⟩
    have hinner := h _ _ (delimited_cons (.inr rfl)) hclose
    simpa using lexes_leftParen_iff.mpr ⟨_, rfl, hinner⟩
  · exact h _ _ hR hts

/-- The tokens of a legible expression in print. -/
theorem Expression.Legible.printsAt {e : Expression} (h : e.Legible) (place : Nat) :
    e.PrintsAt place := by
  induction e generalizing place with
  | literal value =>
      refine .of_zero (fun R ts hR hts => ?_) place
      exact Value.lexes_display h hR hts
  | field path =>
      refine .of_zero (fun R ts hR hts => ?_) place
      obtain ⟨hfirst, hrest⟩ := List.forall_mem_cons.mp h
      show Lexes (path.dotted.toList ++ R) _
      rw [toList_dotted, List.append_assoc]
      have htail := lexes_pointedText hrest hR.not_wordPart hts
      exact (hfirst.lexes_iff (not_wordPart_pointedText hR.not_wordPart path.rest)).mpr
        ⟨_, rfl, htail⟩
  | condition name =>
      refine .of_zero (fun R ts hR hts => ?_) place
      have hname := (IsName.lexes_iff h hR.not_wordPart).mpr ⟨ts, rfl, hts⟩
      rw [toList_displayAt_condition, List.cons_append]
      exact lexes_atSign_iff.mpr ⟨_, rfl, hname⟩
  | not operand ih =>
      refine .of_zero (fun R ts hR hts => ?_) place
      rw [toList_displayAt_not, List.append_assoc]
      exact lexes_not_iff.mpr ⟨_, rfl, ih h 8 R ts hR hts⟩
  | binary op left right ihl ihr =>
      refine .of_zero (fun R ts hR hts => ?_) place
      have hright := ihr h.2.1 (op.precedence + 1) R ts hR hts
      have hop := (lexes_operator_iff op).mpr ⟨_, rfl, hright⟩
      have hleft := ihl h.1 op.precedence _ _ (delimited_cons (.inl rfl)) hop
      rw [toList_displayAt_binary]
      simpa [tokensAt, enclose, readBack] using hleft

end

/-! ## The tokens are a phrase -/

namespace Grammar

section

variable {left right ts : List Token} {a b e : Expression} {others : List Expression}

theorem Conjuncts.append (ha : Conjuncts left a others) (hb : Negation right b) :
    Conjuncts (left ++ .operator .and :: right) a (others ++ [b]) := by
  induction others generalizing left a with
  | nil =>
      cases ha with
      | last ha => exact .and ha (.last hb)
  | cons other others ih =>
      cases ha with
      | and ha hothers =>
          rw [List.append_assoc, List.cons_append]
          exact .and ha (ih hothers)

theorem Disjuncts.append (ha : Disjuncts left a others) (hb : Conjunction right b) :
    Disjuncts (left ++ .operator .or :: right) a (others ++ [b]) := by
  induction others generalizing left a with
  | nil =>
      cases ha with
      | last ha => exact .or ha (.last hb)
  | cons other others ih =>
      cases ha with
      | or ha hothers =>
          rw [List.append_assoc, List.cons_append]
          exact .or ha (ih hothers)

theorem Conjunction.and (ha : Conjunction left a) (hb : Negation right b) :
    Conjunction (left ++ .operator .and :: right) (.binary .and a b) := by
  obtain ⟨ha⟩ := ha
  have hchained := Conjunction.chained (ha.append hb)
  rwa [List.foldl_concat] at hchained

theorem Disjunction.or (ha : Disjunction left a) (hb : Conjunction right b) :
    Disjunction (left ++ .operator .or :: right) (.binary .or a b) := by
  obtain ⟨ha⟩ := ha
  have hchained := Disjunction.chained (ha.append hb)
  rwa [List.foldl_concat] at hchained

theorem Negation.conjunction (h : Negation ts e) : Conjunction ts e :=
  .chained (.last h)

theorem Conjunction.disjunction (h : Conjunction ts e) : Disjunction ts e :=
  .chained (.last h)

theorem Operand.negation (h : Operand ts e) : Negation ts e :=
  .comparison (.operand h)

end

end Grammar

/-- The tokens of an expression without parentheses around it are a phrase of every kind that binds
no tighter than the expression. -/
structure Expression.Phrases (e : Expression) : Prop where
  disjunction : Disjunction (e.tokensAt 0) e
  conjunction : 2 ≤ e.precedence → Conjunction (e.tokensAt 0) e
  negation : 3 ≤ e.precedence → Negation (e.tokensAt 0) e
  operand : e.IsValue → Operand (e.tokensAt 0) e

namespace Expression.Phrases

variable {e : Expression}

theorem of_operand (h : Operand (e.tokensAt 0) e) : e.Phrases where
  disjunction := h.negation.conjunction.disjunction
  conjunction _ := h.negation.conjunction
  negation _ := h.negation
  operand _ := h

theorem of_negation (h : Negation (e.tokensAt 0) e) (hvalue : ¬ e.IsValue) : e.Phrases where
  disjunction := h.conjunction.disjunction
  conjunction _ := h.conjunction
  negation _ := h
  operand := fun h => absurd h hvalue

/-- In parentheses an expression is an operand. -/
theorem operand_of_lt (h : e.Phrases) {place : Nat} (hlt : e.precedence < place) :
    Operand (e.tokensAt place) e := by
  rw [tokensAt_eq, enclose, if_pos hlt]
  exact .parenthesised h.disjunction

theorem tokensAt_of_le {place : Nat} (hle : place ≤ e.precedence) :
    e.tokensAt place = e.tokensAt 0 := by
  rw [tokensAt_eq, enclose, if_neg (Nat.not_lt.mpr hle)]

theorem operandAt (h : e.Phrases) {place : Nat} (henclosed : e.Enclosed place) :
    Operand (e.tokensAt place) e := by
  by_cases hlt : e.precedence < place
  · exact h.operand_of_lt hlt
  · rw [tokensAt_of_le (Nat.not_lt.mp hlt)]
    exact h.operand (henclosed.resolve_right hlt)

theorem negationAt (h : e.Phrases) {place : Nat} (hplace : 3 ≤ place) :
    Negation (e.tokensAt place) e := by
  by_cases hlt : e.precedence < place
  · exact (h.operand_of_lt hlt).negation
  · rw [tokensAt_of_le (Nat.not_lt.mp hlt)]
    exact h.negation (Nat.le_trans hplace (Nat.not_lt.mp hlt))

theorem conjunctionAt (h : e.Phrases) : Conjunction (e.tokensAt 2) e := by
  by_cases hlt : e.precedence < 2
  · exact (h.operand_of_lt hlt).negation.conjunction
  · rw [tokensAt_of_le (Nat.not_lt.mp hlt)]
    exact h.conjunction (Nat.not_lt.mp hlt)

end Expression.Phrases

/-- What holds of an expression that was read where some conditions are known: its names are made of
the characters of words, and a path neither begins like a literal nor is the name of a condition. -/
def Expression.Resolved (known : List String) : Expression → Prop
  | .literal value => ∀ items, value ≠ .list items
  | .field path =>
    path.first ∉ literalWords.map Prod.fst ∧ ¬ (path.rest = [] ∧ path.first ∈ known) ∧
      ∀ name ∈ path.segments, ∀ c ∈ name.toList, isWordPart c = true
  | .condition name => name ∈ known ∧ ∀ c ∈ name.toList, isWordPart c = true
  | .not operand => operand.Resolved known
  | .binary _ left right => left.Resolved known ∧ right.Resolved known

theorem Expression.Resolved.known {known : List String} {e : Expression} (h : e.Resolved known) :
    ∀ name ∈ e.conditions, name ∈ known := by
  induction e with
  | literal _ => exact nofun
  | field _ => exact nofun
  | condition name => simpa [conditions] using h.1
  | not operand ih => exact ih h
  | binary op left right ihl ihr => exact List.forall_mem_append.mpr ⟨ihl h.1, ihr h.2⟩

theorem Expression.Resolved.resolve_readBack {known : List String} {e : Expression}
    (h : e.Resolved known) : e.readBack.resolve known = e.readBack := by
  induction e with
  | literal _ => rfl
  | field _ => exact if_neg h.2.1
  | condition _ => rfl
  | not operand ih => exact congrArg _ (ih h)
  | binary op left right ihl ihr => simp [readBack, resolve, ihl h.1, ihr h.2]

theorem Value.operand_tokens {value : Value} (h : value.Legible) :
    Operand value.readBack.tokens (.literal value.readBack) := by
  cases value with
  | number x => exact .number _
  | bool b => cases b <;> exact .literal (by simp [literalWords, readBack])
  | text s => exact .text s
  | list _ => exact absurd h id
  | null => exact .literal (by simp [literalWords, readBack])

theorem one_le_precedence (e : Expression) : 1 ≤ e.precedence := by
  cases e with
  | binary op _ _ => cases op <;> simp [Expression.precedence, Operator.precedence]
  | _ => simp [Expression.precedence]

/-- The tokens of a legible expression are a phrase whose tree is the expression. -/
theorem Expression.Legible.phrases {known : List String} {e : Expression} (h : e.Legible)
    (hresolved : e.Resolved known) : e.readBack.Phrases := by
  induction e with
  | literal value => exact .of_operand (Value.operand_tokens h)
  | field path => exact .of_operand (.path hresolved.1 path.rest)
  | condition name => exact .of_operand (.reference name)
  | not operand ih =>
      refine .of_negation (.negated ((ih h hresolved).negationAt (by decide))) ?_
      simp [IsValue, readBack, precedence]
  | binary op left right ihl ihr =>
      have hleft := ihl h.1 hresolved.1
      have hright := ihr h.2.1 hresolved.2
      -- The operands of a comparison must be single operands; those of `or` and `and` may be chains,
      -- which the printer leaves without parentheses on the left.
      by_cases hop : op.isComparison = true
      · obtain ⟨hle, hre⟩ := h.2.2 hop
        have hleft' : left.readBack.Enclosed op.precedence := by
          rwa [Enclosed, IsValue, precedence_readBack]
        have hright' : right.readBack.Enclosed (op.precedence + 1) := by
          rwa [Enclosed, IsValue, precedence_readBack]
        have hcompared := Comparison.compared (mem_comparisonOperators.mpr hop)
          (hleft.operandAt hleft') (hright.operandAt hright')
        refine .of_negation (.comparison ?_) ?_
        · simpa [tokensAt, enclose, readBack] using hcompared
        · cases op <;> simp [IsValue, readBack, precedence, Operator.precedence]
      · cases op with
        | or =>
            -- On the left of `or` nothing is put in parentheses.
            have hfirst : Disjunction (left.readBack.tokensAt 1) left.readBack := by
              rw [Phrases.tokensAt_of_le (one_le_precedence _)]
              exact hleft.disjunction
            have htokens : (readBack (.binary .or left right)).tokensAt 0 = _ := enclose_zero _ _
            refine ⟨htokens ▸ hfirst.or hright.conjunctionAt, ?_, ?_, ?_⟩ <;>
              simp [IsValue, readBack, precedence, Operator.precedence]
        | and =>
            have hboth := hleft.conjunctionAt.and (hright.negationAt (Nat.le_refl 3))
            have htokens : (readBack (.binary .and left right)).tokensAt 0 = _ := enclose_zero _ _
            refine ⟨htokens ▸ hboth.disjunction, fun _ => htokens ▸ hboth, ?_, ?_⟩ <;>
              simp [IsValue, readBack, precedence, Operator.precedence]
        | _ => exact absurd rfl hop

end Questionnaire
