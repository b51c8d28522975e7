import Questionnaire.Proofs.Expression.Grammar

/-!
# Reading accepts exactly the grammar

Each reader reads a phrase of its kind (`Reads`), and reads every phrase of its kind that the tokens
behind it do not continue (`Yields`). Both are inductions: the first on the number of tokens left,
as the readers recurse, the second on the derivation of the phrase.
-/

namespace Questionnaire

open Grammar

/-! ## What is read is a phrase -/

/-- The tokens in front of a rest are a phrase, and a value is its tree, its paths resolved. -/
def Reads (context : ParseContext) (Phrase : List Token → Expression → Prop)
    (input : List Lexeme) (value : Expression) (rest : List Lexeme) : Prop :=
  ∃ used tree, input = used ++ rest ∧ Phrase (used.map Lexeme.token) tree ∧
    (∀ name ∈ tree.conditions, name ∈ context.known) ∧ value = tree.resolve context.known

/-- The tokens in front of a rest are a chain of phrases, and the values are their trees. -/
def ReadsAll (context : ParseContext) (Phrases : List Token → Expression → List Expression → Prop)
    (input : List Lexeme) (values : Expression × List Expression) (rest : List Lexeme) : Prop :=
  ∃ used tree trees, input = used ++ rest ∧ Phrases (used.map Lexeme.token) tree trees ∧
    (∀ e ∈ tree :: trees, ∀ name ∈ e.conditions, name ∈ context.known) ∧
      values = (tree.resolve context.known, trees.map (Expression.resolve context.known))

/-- A phrase and, behind an operator, a chain of phrases are read together as one chain. -/
theorem ReadsAll.cons {context : ParseContext} {op : Operator}
    {Phrases : List Token → Expression → List Expression → Prop} {input used rest after : List Lexeme}
    {text : List Char} {position : Nat} {tree : Expression} {others : Expression × List Expression}
    (hsplit : input = used ++ ⟨.operator op, text, position⟩ :: rest)
    (hknown : ∀ name ∈ tree.conditions, name ∈ context.known)
    (hjoin : ∀ {ts b bs}, Phrases ts b bs →
      Phrases (used.map Lexeme.token ++ .operator op :: ts) tree (b :: bs))
    (h : ReadsAll context Phrases rest others after) :
    ReadsAll context Phrases input (tree.resolve context.known, others.1 :: others.2) after := by
  obtain ⟨used', b, bs, hsplit', hb, hknown', rfl⟩ := h
  refine ⟨used ++ ⟨.operator op, text, position⟩ :: used', tree, b :: bs, ?_, ?_, ?_, rfl⟩
  · simp [hsplit, hsplit']
  · simpa using hjoin hb
  · intro e he
    rcases List.mem_cons.mp he with rfl | he
    · exact hknown
    · exact hknown' e he

theorem Reading.length_lt_of_rest {α : Type} {input rest : List Lexeme} {lexeme : Lexeme}
    (r : Reading α input) (h : r.rest = lexeme :: rest) : rest.length < input.length := by
  have shorter := r.shorter
  rw [h, List.length_cons] at shorter
  omega

theorem known_foldl_iff {known : List String} {op : Operator} {first : Expression}
    {others : List Expression} :
    (∀ name ∈ (others.foldl (.binary op) first).conditions, name ∈ known) ↔
      ∀ tree ∈ first :: others, ∀ name ∈ tree.conditions, name ∈ known := by
  simp only [conditions_foldl, List.mem_flatMap]
  constructor
  · intro h tree htree name hname
    exact h name ⟨tree, htree, hname⟩
  · rintro h name ⟨tree, htree, hname⟩
    exact h tree htree name hname

theorem pathRest_sound (context : ParseContext) (input : List Lexeme) {names rest}
    (h : pathRest context input = .ok (names, rest)) :
    ∃ used, input = used ++ rest.1 ∧ used.map Lexeme.token = pointedNames names := by
  fun_induction pathRest context input generalizing names with
  | case1 => exact nomatch h
  | case2 t₁ p₁ name t₂ p₂ input names' rest' hle he ih =>
    cases h
    obtain ⟨used, hused, htokens⟩ := ih he
    refine ⟨⟨.point, t₁, p₁⟩ :: ⟨.word name, t₂, p₂⟩ :: used, ?_, ?_⟩
    · simpa using hused
    · simp [htokens]
  | case3 => exact nomatch h
  | case4 =>
    cases h
    exact ⟨[], rfl, rfl⟩

mutual

theorem readOperand_sound (context : ParseContext) (input : List Lexeme) {r}
    (h : readOperand context input = .ok r) : Reads context Operand input r.value r.rest := by
  rw [readOperand.eq_def] at h
  split at h
  · exact nomatch h
  · next token text position rest =>
    split at h
    · cases h
      exact ⟨[_], _, rfl, .number _, by simp [Expression.conditions], rfl⟩
    · cases h
      exact ⟨[_], _, rfl, .text _, by simp [Expression.conditions], rfl⟩
    · split at h
      · exact nomatch h
      · next inner hinner =>
        obtain ⟨used, tree, hsplit, htree, hknown, hvalue⟩ :=
          readDisjunction_sound context rest hinner
        -- What is read inside must end where the parenthesis closes.
        split at h
        · next text' position' rest' hrest =>
          cases h
          refine ⟨⟨.leftParen, text, position⟩ :: used ++ [⟨.rightParen, text', position'⟩], tree,
            ?_, ?_, hknown, hvalue⟩
          · simp [hsplit, hrest]
          · simpa using Operand.parenthesised htree
        · exact nomatch h
    · split at h
      · next name text' position' rest' =>
        split at h
        · next hname =>
          cases h
          exact ⟨[_, _], _, rfl, .reference name, by simpa [Expression.conditions] using hname, rfl⟩
        · exact nomatch h
      · exact nomatch h
    · next word =>
      split at h
      · next value hvalue =>
        cases h
        exact ⟨[_], _, rfl, .literal (wordLiteral?_eq_some.mp hvalue),
          by simp [Expression.conditions], rfl⟩
      · next hword =>
        split at h
        · exact nomatch h
        · next names rest' hle hpath =>
          cases h
          obtain ⟨used, hsplit, htokens⟩ := pathRest_sound context rest hpath
          refine ⟨_ :: used, .field ⟨word, names⟩, congrArg _ hsplit, ?_, ?_, ?_⟩
          · rw [List.map_cons, htokens]
            exact .path (wordLiteral?_eq_none.mp hword) names
          · simp [Expression.conditions]
          · simp [pathExpression, Expression.resolve]
    · exact nomatch h
termination_by 6 * input.length

theorem readComparison_sound (context : ParseContext) (input : List Lexeme) {r}
    (h : readComparison context input = .ok r) : Reads context Comparison input r.value r.rest := by
  rw [readComparison.eq_def] at h
  split at h
  · exact nomatch h
  · next left hleft =>
    obtain ⟨used, a, hsplit, ha, hknown, hvalue⟩ := readOperand_sound context input hleft
    have hoperand : Reads context Comparison input left.value left.rest :=
      ⟨used, a, hsplit, .operand ha, hknown, hvalue⟩
    split at h
    · next op text position rest hrest =>
      split at h
      · next hop =>
        have shorter := left.length_lt_of_rest hrest
        split at h
        · exact nomatch h
        · next right hright =>
          cases h
          obtain ⟨used', b, hsplit', hb, hknown', hvalue'⟩ := readOperand_sound context rest hright
          refine ⟨used ++ ⟨.operator op, text, position⟩ :: used', .binary op a b, ?_, ?_, ?_, ?_⟩
          · simp [hsplit, hrest, hsplit']
          · simpa using Comparison.compared (mem_comparisonOperators.mpr hop) ha hb
          · intro name hname
            rcases List.mem_append.mp hname with hname | hname
            · exact hknown name hname
            · exact hknown' name hname
          · simp [Expression.resolve, hvalue, hvalue']
      · cases h
        exact hoperand
    · cases h
      exact hoperand
termination_by 6 * input.length + 1

theorem readNegation_sound (context : ParseContext) (input : List Lexeme) {r}
    (h : readNegation context input = .ok r) : Reads context Negation input r.value r.rest := by
  rw [readNegation.eq_def] at h
  split at h
  · next text position rest =>
    split at h
    · exact nomatch h
    · next operand hoperand =>
      cases h
      obtain ⟨used, tree, hsplit, htree, hknown, hvalue⟩ :=
        readNegation_sound context rest hoperand
      exact ⟨_ :: used, .not tree, congrArg _ hsplit, .negated htree, hknown,
        congrArg Expression.not hvalue⟩
  · obtain ⟨used, tree, hsplit, htree, hrest⟩ := readComparison_sound context input h
    exact ⟨used, tree, hsplit, .comparison htree, hrest⟩
termination_by 6 * input.length + 2

theorem readConjuncts_sound (context : ParseContext) (input : List Lexeme) {r}
    (h : readConjuncts context input = .ok r) :
    ReadsAll context Conjuncts input r.value r.rest := by
  rw [readConjuncts.eq_def] at h
  split at h
  · exact nomatch h
  · next first hfirst =>
    obtain ⟨used, a, hsplit, ha, hknown, hvalue⟩ := readNegation_sound context input hfirst
    split at h
    · next text position rest hrest =>
      have shorter := first.length_lt_of_rest hrest
      split at h
      · exact nomatch h
      · next others hothers =>
        cases h
        rw [hvalue]
        exact .cons (hrest ▸ hsplit) hknown (fun hb => .and ha hb)
          (readConjuncts_sound context rest hothers)
    · cases h
      exact ⟨used, a, [], hsplit, .last ha, by simpa using hknown, by simp [Reading.map, hvalue]⟩
termination_by 6 * input.length + 3

theorem readDisjuncts_sound (context : ParseContext) (input : List Lexeme) {r}
    (h : readDisjuncts context input = .ok r) :
    ReadsAll context Disjuncts input r.value r.rest := by
  rw [readDisjuncts.eq_def] at h
  split at h
  · exact nomatch h
  · next first hfirst =>
    obtain ⟨used, a, as, hsplit, ha, hknown, hvalue⟩ := readConjuncts_sound context input hfirst
    have hknown : ∀ name ∈ (as.foldl (.binary .and) a).conditions, name ∈ context.known :=
      known_foldl_iff.mpr hknown
    dsimp only at h
    split at h
    · next text position rest hrest =>
      have shorter := first.length_lt_of_rest hrest
      split at h
      · exact nomatch h
      · next others hothers =>
        cases h
        rw [hvalue, chain, ← resolve_foldl]
        exact .cons (hrest ▸ hsplit) hknown (fun hb => .or (.chained ha) hb)
          (readDisjuncts_sound context rest hothers)
    · cases h
      exact ⟨used, as.foldl (.binary .and) a, [], hsplit, .last (.chained ha), by simpa using hknown,
        by simp [Reading.map, hvalue, chain, resolve_foldl]⟩
termination_by 6 * input.length + 4

theorem readDisjunction_sound (context : ParseContext) (input : List Lexeme) {r}
    (h : readDisjunction context input = .ok r) :
    Reads context Disjunction input r.value r.rest := by
  rw [readDisjunction.eq_def] at h
  split at h
  · exact nomatch h
  · next disjuncts hdisjuncts =>
    cases h
    obtain ⟨used, a, as, hsplit, ha, hknown, hvalue⟩ :=
      readDisjuncts_sound context input hdisjuncts
    exact ⟨used, as.foldl (.binary .or) a, hsplit, .chained ha, known_foldl_iff.mpr hknown,
      by simp [Reading.map, hvalue, chain, resolve_foldl]⟩
termination_by 6 * input.length + 5

end

/-! ## Every phrase is read -/

theorem map_eq_append_cons {used : List Lexeme} {left right : List Token} {token : Token}
    (h : used.map Lexeme.token = left ++ token :: right) :
    ∃ before text position after, used = before ++ ⟨token, text, position⟩ :: after ∧
      before.map Lexeme.token = left ∧ after.map Lexeme.token = right := by
  obtain ⟨before, others, rfl, hleft, hothers⟩ := List.map_eq_append_iff.mp h
  obtain ⟨⟨_, text, position⟩, after, rfl, rfl, hright⟩ := List.map_eq_cons_iff.mp hothers
  exact ⟨before, text, position, after, rfl, hleft, hright⟩

/-- A reading succeeds with a value, and leaves a rest. -/
def Yields {α : Type} {input : List Lexeme} (result : Except ParseError (Reading α input))
    (value : α) (rest : List Lexeme) : Prop :=
  ∃ r, result = .ok r ∧ r.value = value ∧ r.rest = rest

theorem pathRest_complete (context : ParseContext) (names : List String) :
    ∀ {used rest : List Lexeme},
      used.map Lexeme.token = pointedNames names →
      Stops 4 (rest.map Lexeme.token) →
      ∃ found, pathRest context (used ++ rest) = .ok (names, found) ∧ found.1 = rest := by
  induction names with
  | nil =>
      intro used rest hused hrest
      obtain rfl := List.map_eq_nil_iff.mp hused
      rw [List.nil_append]
      unfold pathRest
      split
      · simp [binding] at hrest
      · simp [binding] at hrest
      · exact ⟨_, rfl, rfl⟩
  | cons name names ih =>
      intro used rest hused hrest
      obtain ⟨⟨_, _, _⟩, tail, rfl, rfl, htail⟩ := List.map_eq_cons_iff.mp hused
      obtain ⟨⟨_, _, _⟩, others, rfl, rfl, hothers⟩ := List.map_eq_cons_iff.mp htail
      obtain ⟨found, hread, hfound⟩ := ih hothers hrest
      refine ⟨⟨found.1, ?_⟩, ?_, hfound⟩
      · exact Nat.le_trans found.2 (by simp only [List.cons_append, List.length_cons]; omega)
      · simp only [List.cons_append, pathRest, hread]

theorem readComparison_of_stops {context : ParseContext} {input rest : List Lexeme} {value}
    (h : Yields (readOperand context input) value rest) (hrest : Stops 3 (rest.map Lexeme.token)) :
    Yields (readComparison context input) value rest := by
  obtain ⟨left, hread, hvalue, rfl⟩ := h
  refine ⟨left, ?_, hvalue, rfl⟩
  rw [readComparison.eq_def, hread]
  dsimp only
  split
  · next op text position rest' heq =>
    rw [heq] at hrest
    split
    -- An operator that compares would have continued the operand.
    · next hop => cases op <;> simp [binding, Operator.isComparison] at hrest hop
    · rfl
  · rfl

theorem readNegation_of_readComparison {context : ParseContext} {input : List Lexeme} {r}
    (h : readComparison context input = .ok r) : readNegation context input = .ok r := by
  rw [readNegation.eq_def]
  split
  -- No operand begins with a negation sign.
  · rw [readComparison.eq_def, readOperand.eq_def] at h
    exact nomatch h
  · exact h

mutual

theorem readOperand_complete (context : ParseContext) :
    ∀ {ts tree}, Operand ts tree → ∀ (rest : List Lexeme) {used : List Lexeme},
      used.map Lexeme.token = ts → Stops 4 (rest.map Lexeme.token) →
      (∀ name ∈ tree.conditions, name ∈ context.known) →
      Yields (readOperand context (used ++ rest)) (tree.resolve context.known) rest
  | _, _, .number x, rest, used, hused, _, _ => by
    obtain ⟨⟨_, _, _⟩, _, rfl, rfl, hnil⟩ := List.map_eq_cons_iff.mp hused
    obtain rfl := List.map_eq_nil_iff.mp hnil
    rw [readOperand.eq_def]
    exact ⟨_, rfl, rfl, rfl⟩
  | _, _, .text s, rest, used, hused, _, _ => by
    obtain ⟨⟨_, _, _⟩, _, rfl, rfl, hnil⟩ := List.map_eq_cons_iff.mp hused
    obtain rfl := List.map_eq_nil_iff.mp hnil
    rw [readOperand.eq_def]
    exact ⟨_, rfl, rfl, rfl⟩
  | _, _, .literal hword, rest, used, hused, _, _ => by
    obtain ⟨⟨_, _, _⟩, _, rfl, rfl, hnil⟩ := List.map_eq_cons_iff.mp hused
    obtain rfl := List.map_eq_nil_iff.mp hnil
    rw [List.cons_append, readOperand.eq_def]
    simp only [wordLiteral?_eq_some.mpr hword]
    exact ⟨_, rfl, rfl, rfl⟩
  | _, _, .path hfirst names, rest, used, hused, hrest, _ => by
    obtain ⟨⟨_, _, _⟩, tail, rfl, rfl, htail⟩ := List.map_eq_cons_iff.mp hused
    obtain ⟨found, hread, hfound⟩ := pathRest_complete context names htail hrest
    rw [List.cons_append, readOperand.eq_def]
    simp only [wordLiteral?_eq_none.mpr hfirst, hread]
    exact ⟨_, rfl, by simp [pathExpression, Expression.resolve], hfound⟩
  | _, _, .reference name, rest, used, hused, _, hknown => by
    obtain ⟨⟨_, _, _⟩, tail, rfl, rfl, htail⟩ := List.map_eq_cons_iff.mp hused
    obtain ⟨⟨_, _, _⟩, others, rfl, rfl, hothers⟩ := List.map_eq_cons_iff.mp htail
    obtain rfl := List.map_eq_nil_iff.mp hothers
    have hname : context.known.contains name = true := by
      simpa [Expression.conditions] using hknown
    rw [List.cons_append, List.cons_append, readOperand.eq_def]
    simp only [hname, if_true]
    exact ⟨_, rfl, rfl, rfl⟩
  | _, _, .parenthesised htree, rest, used, hused, _, hknown => by
    obtain ⟨⟨_, text, position⟩, tail, rfl, rfl, htail⟩ := List.map_eq_cons_iff.mp hused
    obtain ⟨inner, text', position', after, rfl, hinner, hafter⟩ := map_eq_append_cons htail
    obtain rfl := List.map_eq_nil_iff.mp hafter
    obtain ⟨r, hread, hvalue, hrest⟩ := readDisjunction_complete context htree
      (⟨.rightParen, text', position'⟩ :: rest) hinner
      (by simp [binding]) hknown
    rw [List.cons_append, List.append_assoc, readOperand.eq_def]
    simp only [List.cons_append, List.nil_append, hread]
    split
    · next heq =>
      rw [hrest] at heq
      cases heq
      exact ⟨_, rfl, hvalue, rfl⟩
    · next hne => exact absurd hrest (hne _ _ _)

theorem readComparison_complete (context : ParseContext) :
    ∀ {ts tree}, Comparison ts tree → ∀ (rest : List Lexeme) {used : List Lexeme},
      used.map Lexeme.token = ts → Stops 3 (rest.map Lexeme.token) →
      (∀ name ∈ tree.conditions, name ∈ context.known) →
      Yields (readComparison context (used ++ rest)) (tree.resolve context.known) rest
  | _, _, .operand htree, rest, used, hused, hrest, hknown =>
    readComparison_of_stops
      (readOperand_complete context htree _ hused (hrest.mono (by decide)) hknown) hrest
  | _, _, @Comparison.compared op _ _ _ _ hop ha hb, rest, used, hused, hrest, hknown => by
    obtain ⟨before, text, position, after, rfl, hbefore, hafter⟩ := map_eq_append_cons hused
    obtain ⟨left, hleft, hlvalue, hlrest⟩ := readOperand_complete context ha
      (⟨.operator op, text, position⟩ :: (after ++ rest)) hbefore
      (by simp [binding_comparison hop])
      fun name hname => hknown name (List.mem_append_left _ hname)
    obtain ⟨right, hright, hrvalue, hrrest⟩ := readOperand_complete context hb rest hafter
      (hrest.mono (by decide)) fun name hname => hknown name (List.mem_append_right _ hname)
    rw [List.append_assoc, List.cons_append, readComparison.eq_def, hleft]
    dsimp only
    split
    · next heq =>
      rw [hlrest] at heq
      cases heq
      simp only [mem_comparisonOperators.mp hop, if_true, hright]
      exact ⟨_, rfl, by simp [Expression.resolve, hlvalue, hrvalue], hrrest⟩
    · next hne => exact absurd hlrest (hne _ _ _ _)

theorem readNegation_complete (context : ParseContext) :
    ∀ {ts tree}, Negation ts tree → ∀ (rest : List Lexeme) {used : List Lexeme},
      used.map Lexeme.token = ts → Stops 3 (rest.map Lexeme.token) →
      (∀ name ∈ tree.conditions, name ∈ context.known) →
      Yields (readNegation context (used ++ rest)) (tree.resolve context.known) rest
  | _, _, .negated htree, rest, used, hused, hrest, hknown => by
    obtain ⟨⟨_, _, _⟩, tail, rfl, rfl, htail⟩ := List.map_eq_cons_iff.mp hused
    obtain ⟨r, hread, hvalue, hrrest⟩ := readNegation_complete context htree _ htail hrest hknown
    rw [List.cons_append, readNegation.eq_def]
    simp only [hread]
    exact ⟨_, rfl, congrArg Expression.not hvalue, hrrest⟩
  | _, _, .comparison htree, rest, used, hused, hrest, hknown => by
    obtain ⟨r, hread, hr⟩ := readComparison_complete context htree _ hused hrest hknown
    exact ⟨r, readNegation_of_readComparison hread, hr⟩

theorem readConjuncts_complete (context : ParseContext) :
    ∀ {ts tree trees}, Conjuncts ts tree trees → ∀ (rest : List Lexeme) {used : List Lexeme},
      used.map Lexeme.token = ts → Stops 2 (rest.map Lexeme.token) →
      (∀ e ∈ tree :: trees, ∀ name ∈ e.conditions, name ∈ context.known) →
      Yields (readConjuncts context (used ++ rest))
        (tree.resolve context.known, trees.map (Expression.resolve context.known)) rest
  | _, _, _, .last htree, rest, used, hused, hrest, hknown => by
    obtain ⟨r, hread, hvalue, hrrest⟩ := readNegation_complete context htree _ hused
      (hrest.mono (by decide)) (hknown _ (List.mem_singleton_self _))
    rw [readConjuncts.eq_def, hread]
    dsimp only
    split
    · next heq =>
      rw [hrrest] at heq
      simp [heq, Stops, binding] at hrest
    · exact ⟨_, rfl, by simp [Reading.map, hvalue], hrrest⟩
  | _, _, _, .and ha hb, rest, used, hused, hrest, hknown => by
    obtain ⟨before, text, position, after, rfl, hbefore, hafter⟩ := map_eq_append_cons hused
    obtain ⟨left, hleft, hlvalue, hlrest⟩ := readNegation_complete context ha
      (⟨.operator .and, text, position⟩ :: (after ++ rest)) hbefore
      (by simp [binding]) (hknown _ (List.mem_cons_self ..))
    obtain ⟨right, hright, hrvalue, hrrest⟩ := readConjuncts_complete context hb rest
      hafter hrest fun e he => hknown e (List.mem_cons_of_mem _ he)
    rw [List.append_assoc, List.cons_append, readConjuncts.eq_def, hleft]
    dsimp only
    split
    · next heq =>
      rw [hlrest] at heq
      cases heq
      simp only [hright]
      exact ⟨_, rfl, by simp [hlvalue, hrvalue], hrrest⟩
    · next hne => exact absurd hlrest (hne _ _ _)

theorem readDisjuncts_complete (context : ParseContext) :
    ∀ {ts tree trees}, Disjuncts ts tree trees → ∀ (rest : List Lexeme) {used : List Lexeme},
      used.map Lexeme.token = ts → Stops 1 (rest.map Lexeme.token) →
      (∀ e ∈ tree :: trees, ∀ name ∈ e.conditions, name ∈ context.known) →
      Yields (readDisjuncts context (used ++ rest))
        (tree.resolve context.known, trees.map (Expression.resolve context.known)) rest
  | _, _, _, .last (.chained htree), rest, used, hused, hrest, hknown => by
    obtain ⟨r, hread, hvalue, hrrest⟩ := readConjuncts_complete context htree _ hused
      (hrest.mono (by decide)) (known_foldl_iff.mp (hknown _ (List.mem_singleton_self _)))
    rw [readDisjuncts.eq_def, hread]
    dsimp only
    split
    · next heq =>
      rw [hrrest] at heq
      simp [heq, Stops, binding] at hrest
    · exact ⟨_, rfl, by simp [Reading.map, hvalue, chain, resolve_foldl], hrrest⟩
  | _, _, _, .or (.chained ha) hb, rest, used, hused, hrest, hknown => by
    obtain ⟨before, text, position, after, rfl, hbefore, hafter⟩ := map_eq_append_cons hused
    obtain ⟨left, hleft, hlvalue, hlrest⟩ := readConjuncts_complete context ha
      (⟨.operator .or, text, position⟩ :: (after ++ rest)) hbefore
      (by simp [binding]) (known_foldl_iff.mp (hknown _ (List.mem_cons_self ..)))
    obtain ⟨right, hright, hrvalue, hrrest⟩ := readDisjuncts_complete context hb rest
      hafter hrest fun e he => hknown e (List.mem_cons_of_mem _ he)
    rw [List.append_assoc, List.cons_append, readDisjuncts.eq_def, hleft]
    dsimp only
    split
    · next heq =>
      rw [hlrest] at heq
      cases heq
      simp only [hright]
      exact ⟨_, rfl, by simp [hlvalue, hrvalue, chain, resolve_foldl], hrrest⟩
    · next hne => exact absurd hlrest (hne _ _ _)

theorem readDisjunction_complete (context : ParseContext) :
    ∀ {ts tree}, Disjunction ts tree → ∀ (rest : List Lexeme) {used : List Lexeme},
      used.map Lexeme.token = ts → Stops 1 (rest.map Lexeme.token) →
      (∀ name ∈ tree.conditions, name ∈ context.known) →
      Yields (readDisjunction context (used ++ rest)) (tree.resolve context.known) rest
  | _, _, .chained h, rest, used, hused, hrest, hknown => by
    obtain ⟨r, hread, hvalue, hrrest⟩ := readDisjuncts_complete context h _ hused hrest
      (known_foldl_iff.mp hknown)
    rw [readDisjunction.eq_def, hread]
    exact ⟨_, rfl, by simp [Reading.map, hvalue, chain, resolve_foldl], hrrest⟩

end

/-! ## The whole text -/

theorem ofTokens_eq_ok_iff {context : ParseContext} {lexemes : List Lexeme} {e : Expression} :
    Expression.ofTokens context lexemes = .ok e ↔
      ∃ tree, Disjunction (lexemes.map Lexeme.token) tree ∧
        (∀ name ∈ tree.conditions, name ∈ context.known) ∧ tree.resolve context.known = e := by
  constructor
  · intro h
    unfold Expression.ofTokens at h
    split at h
    · exact nomatch h
    · next read hread =>
      obtain ⟨used, tree, hsplit, htree, hknown, hvalue⟩ :=
        readDisjunction_sound context lexemes hread
      split at h
      · next hrest =>
        cases h
        obtain rfl : lexemes = used := by rw [hsplit, hrest, List.append_nil]
        exact ⟨tree, htree, hknown, hvalue.symm⟩
      · exact nomatch h
  · rintro ⟨tree, htree, hknown, rfl⟩
    have hyields := readDisjunction_complete context htree [] rfl (stops_nil 1) hknown
    rw [List.append_nil] at hyields
    obtain ⟨read, hread, hvalue, hrest⟩ := hyields
    unfold Expression.ofTokens
    simp only [hread, hrest, hvalue]

/-- Reading accepts exactly the texts whose tokens are a disjunction of the grammar in which `@`
refers to conditions that there are, and gives the only tree of that disjunction, in which a path
of a single name that a condition has is a reference to the condition. -/
theorem parse_eq_ok_iff (known : List String) (source : String) (e : Expression) :
    Expression.parse known source = .ok e ↔
      ∃ lexemes tree, tokens source = .ok lexemes ∧
        Disjunction (lexemes.map Lexeme.token) tree ∧
        (∀ other, Disjunction (lexemes.map Lexeme.token) other → other = tree) ∧
        (∀ name ∈ tree.conditions, name ∈ known) ∧ tree.resolve known = e := by
  unfold Expression.parse
  cases htokens : tokens source with
  | error problem => simp
  | ok lexemes =>
      constructor
      · intro h
        obtain ⟨tree, htree, hknown, hvalue⟩ := ofTokens_eq_ok_iff.mp h
        refine ⟨lexemes, tree, rfl, htree, ?_, hknown, hvalue⟩
        intro other hother
        exact (hother.unique htree rfl (stops_nil 1) (stops_nil 1)).1
      · rintro ⟨_, tree, hlexemes, htree, _, hknown, hvalue⟩
        cases hlexemes
        exact ofTokens_eq_ok_iff.mpr ⟨tree, htree, hknown, hvalue⟩

end Questionnaire
