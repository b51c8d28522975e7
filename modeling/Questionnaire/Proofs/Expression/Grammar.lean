import Questionnaire.Expression.Parser

/-!
# The grammar of expressions

Which sequences of tokens are phrases of each kind, and the tree that each phrase stands for. The
relations do not know which conditions there are: a path is a field and `@` refers to a condition,
whatever its name. `Expression.resolve` then reads the paths that name a condition.

A word that spells a literal is that literal and begins no path; behind a point every word is a
name. The grammar is unambiguous (`Grammar.Disjunction.unique`), which is stated for phrases in
front of other tokens: those tokens must not continue the phrase (`Stops`).
-/

namespace Questionnaire

/-- The expression with the fields of a single name that a condition has read as references. -/
def Expression.resolve (known : List String) : Expression → Expression
  | .literal value => .literal value
  | .field path =>
    if path.rest = [] ∧ path.first ∈ known then .condition path.first else .field path
  | .condition name => .condition name
  | .not operand => .not (operand.resolve known)
  | .binary op left right => .binary op (left.resolve known) (right.resolve known)

theorem resolve_foldl (known : List String) (op : Operator) :
    ∀ (others : List Expression) (first : Expression),
    (others.foldl (.binary op) first).resolve known =
      (others.map (Expression.resolve known)).foldl (.binary op) (first.resolve known) := by
  intro others
  induction others with
  | nil => intro first; rfl
  | cons other others ih => intro first; exact ih (.binary op first other)

theorem conditions_foldl (op : Operator) : ∀ (others : List Expression) (first : Expression),
    (others.foldl (.binary op) first).conditions =
      (first :: others).flatMap Expression.conditions := by
  intro others
  induction others with
  | nil => intro first; simp
  | cons other others ih =>
      intro first
      rw [List.foldl_cons, ih]
      simp [Expression.conditions]

namespace Grammar

/-- The words that are literals, and their values. -/
def literalWords : List (String × Value) :=
  [("true", .bool true), ("false", .bool false), ("null", .null), ("undefined", .null)]

/-- The operators that compare. -/
def comparisonOperators : List Operator :=
  [.equal, .notEqual, .greater, .greaterOrEqual, .less, .lessOrEqual, .member]

theorem mem_comparisonOperators {op : Operator} :
    op ∈ comparisonOperators ↔ op.isComparison = true := by
  cases op <;> decide

/-- The tokens of the names of a path behind the first, each with its point. -/
def pointedNames (names : List String) : List Token :=
  names.flatMap fun name => [.point, .word name]

@[simp] theorem pointedNames_nil : pointedNames [] = [] := rfl

@[simp] theorem pointedNames_cons (name : String) (names : List String) :
    pointedNames (name :: names) = .point :: .word name :: pointedNames names := rfl

mutual

/-- `operand := number | text | literal | word ("." word)* | "@" word | "(" disjunction ")"` -/
inductive Operand : List Token → Expression → Prop
  | number (x : Extended64) : Operand [.number x] (.literal (.number x))
  | text (s : String) : Operand [.text s] (.literal (.text s))
  | literal {word : String} {value : Value} (h : (word, value) ∈ literalWords) :
      Operand [.word word] (.literal value)
  | path {first : String} (h : first ∉ literalWords.map Prod.fst) (names : List String) :
      Operand (.word first :: pointedNames names) (.field ⟨first, names⟩)
  | reference (name : String) : Operand [.atSign, .word name] (.condition name)
  | parenthesised {inner : List Token} {tree : Expression} (h : Disjunction inner tree) :
      Operand (.leftParen :: inner ++ [.rightParen]) tree

/-- `comparison := operand (operator operand)?` -/
inductive Comparison : List Token → Expression → Prop
  | operand {ts : List Token} {tree : Expression} (h : Operand ts tree) : Comparison ts tree
  | compared {op : Operator} {left right : List Token} {a b : Expression}
      (hop : op ∈ comparisonOperators) (ha : Operand left a) (hb : Operand right b) :
      Comparison (left ++ .operator op :: right) (.binary op a b)

/-- `negation := "not" negation | comparison` -/
inductive Negation : List Token → Expression → Prop
  | negated {ts : List Token} {tree : Expression} (h : Negation ts tree) :
      Negation (.notSign :: ts) (.not tree)
  | comparison {ts : List Token} {tree : Expression} (h : Comparison ts tree) : Negation ts tree

/-- `negation ("and" negation)*`, as the first tree and the others. -/
inductive Conjuncts : List Token → Expression → List Expression → Prop
  | last {ts : List Token} {tree : Expression} (h : Negation ts tree) : Conjuncts ts tree []
  | and {left right : List Token} {a b : Expression} {others : List Expression}
      (ha : Negation left a) (hb : Conjuncts right b others) :
      Conjuncts (left ++ .operator .and :: right) a (b :: others)

/-- `conjunction := negation ("and" negation)*`, associating to the left. -/
inductive Conjunction : List Token → Expression → Prop
  | chained {ts : List Token} {first : Expression} {others : List Expression}
      (h : Conjuncts ts first others) : Conjunction ts (others.foldl (.binary .and) first)

/-- `conjunction ("or" conjunction)*`, as the first tree and the others. -/
inductive Disjuncts : List Token → Expression → List Expression → Prop
  | last {ts : List Token} {tree : Expression} (h : Conjunction ts tree) : Disjuncts ts tree []
  | or {left right : List Token} {a b : Expression} {others : List Expression}
      (ha : Conjunction left a) (hb : Disjuncts right b others) :
      Disjuncts (left ++ .operator .or :: right) a (b :: others)

/-- `disjunction := conjunction ("or" conjunction)*`, associating to the left. -/
inductive Disjunction : List Token → Expression → Prop
  | chained {ts : List Token} {first : Expression} {others : List Expression}
      (h : Disjuncts ts first others) : Disjunction ts (others.foldl (.binary .or) first)

end

/-- Behind a point the word of a literal is a name like any other. -/
example : Operand [.word "answers", .point, .word "true"] (.field ⟨"answers", ["true"]⟩) :=
  .path (by simp [literalWords]) ["true"]

theorem wordLiteral?_eq_some {word : String} {value : Value} :
    wordLiteral? word = some value ↔ (word, value) ∈ literalWords := by
  unfold wordLiteral? literalWords
  split <;> simp_all [eq_comm]

theorem wordLiteral?_eq_none {word : String} :
    wordLiteral? word = none ↔ word ∉ literalWords.map Prod.fst := by
  unfold wordLiteral? literalWords
  split <;> simp_all

/-! ## What follows a phrase -/

/-- How tightly a token behind a phrase draws the phrase into a larger one. -/
def binding : Token → Nat
  | .point => 4
  | .operator .or => 1
  | .operator .and => 2
  | .operator _ => 3
  | _ => 0

/-- The tokens behind a phrase do not continue it: the first binds less tightly than its place. -/
def Stops (place : Nat) (rest : List Token) : Prop :=
  ∀ token ∈ rest.head?, binding token < place

theorem Stops.mono {place place' : Nat} {rest : List Token} (h : Stops place rest)
    (hle : place ≤ place') : Stops place' rest :=
  fun token htoken => Nat.lt_of_lt_of_le (h token htoken) hle

theorem stops_nil (place : Nat) : Stops place [] := by
  intro token htoken
  cases htoken

@[simp] theorem stops_cons {place : Nat} {token : Token} {rest : List Token} :
    Stops place (token :: rest) ↔ binding token < place := by
  simp [Stops]

theorem binding_comparison {op : Operator} (h : op ∈ comparisonOperators) :
    binding (.operator op) = 3 := by
  cases op <;> simp_all [comparisonOperators, binding]

/-! ## Unambiguity -/

theorem pointedNames_unique : ∀ {names names' : List String} {rest rest' : List Token},
    pointedNames names ++ rest = pointedNames names' ++ rest' →
    Stops 4 rest → Stops 4 rest' → names = names' ∧ rest = rest' := by
  intro names
  induction names with
  | nil =>
      intro names' rest rest' heq hrest _
      cases names' with
      | nil => exact ⟨rfl, heq⟩
      | cons name' names' =>
          obtain rfl : rest = _ := heq
          simp [pointedNames, binding] at hrest
  | cons name names ih =>
      intro names' rest rest' heq hrest hrest'
      cases names' with
      | nil =>
          obtain rfl : _ = rest' := heq
          simp [pointedNames, binding] at hrest'
      | cons name' names' =>
          simp only [pointedNames, List.flatMap_cons, List.cons_append, List.nil_append,
            List.cons.injEq, Token.word.injEq, true_and] at heq
          obtain ⟨rfl, rfl⟩ := ih heq.2 hrest hrest'
          exact ⟨by rw [heq.1], rfl⟩

theorem Operand.ne_notSign {ts : List Token} {tree : Expression} (h : Operand ts tree)
    (rest : List Token) : ts ≠ .notSign :: rest := by
  cases h <;> simp

theorem Operand.ne_nil {ts : List Token} {tree : Expression} (h : Operand ts tree) : ts ≠ [] := by
  cases h <;> simp

theorem Comparison.ne_nil {ts : List Token} {tree : Expression} (h : Comparison ts tree) :
    ts ≠ [] := by
  cases h with
  | operand h => exact h.ne_nil
  | compared _ _ _ => simp

theorem Comparison.ne_notSign {ts : List Token} {tree : Expression} (h : Comparison ts tree)
    (rest : List Token) : ts ≠ .notSign :: rest := by
  cases h with
  | operand h => exact h.ne_notSign rest
  | compared _ ha _ =>
      intro heq
      rcases List.append_eq_cons_iff.mp heq with ⟨_, hop⟩ | ⟨tail, hleft, _⟩
      · simp at hop
      · exact ha.ne_notSign tail hleft

mutual

theorem Operand.unique : ∀ {left : List Token} {a : Expression}, Operand left a →
    ∀ {left' rest rest' : List Token} {b : Expression}, Operand left' b →
    left ++ rest = left' ++ rest' → Stops 4 rest → Stops 4 rest' → a = b ∧ rest = rest'
  | _, _, .number _, _, _, _, _, h', heq, _, _ => by cases h' <;> simp_all
  | _, _, .text _, _, _, _, _, h', heq, _, _ => by cases h' <;> simp_all
  | _, _, .literal hword, _, _, _, _, h', heq, _, _ => by
    cases h' with
    | literal hword' =>
        simp only [List.cons_append, List.nil_append, List.cons.injEq, Token.word.injEq] at heq
        obtain ⟨rfl, rfl⟩ := heq
        have hvalues := (wordLiteral?_eq_some.mpr hword).symm.trans (wordLiteral?_eq_some.mpr hword')
        exact ⟨by rw [Option.some.inj hvalues], rfl⟩
    | path hfirst =>
        simp only [List.cons_append, List.nil_append, List.cons.injEq, Token.word.injEq] at heq
        exact absurd (List.mem_map_of_mem hword) (heq.1 ▸ hfirst)
    | _ => simp at heq
  | _, _, .path hfirst names, _, _, _, _, h', heq, hrest, hrest' => by
    cases h' with
    | literal hword =>
        simp only [List.cons_append, List.nil_append, List.cons.injEq, Token.word.injEq] at heq
        exact absurd (List.mem_map_of_mem hword) (heq.1 ▸ hfirst)
    | path _ names' =>
        simp only [List.cons_append, List.cons.injEq, Token.word.injEq] at heq
        obtain ⟨rfl, rfl⟩ := pointedNames_unique heq.2 hrest hrest'
        exact ⟨by rw [heq.1], rfl⟩
    | _ => simp at heq
  | _, _, .reference _, _, _, _, _, h', heq, _, _ => by cases h' <;> simp_all
  | _, _, .parenthesised h, _, _, _, _, h', heq, _, _ => by
    cases h' with
    | parenthesised h' =>
        simp only [List.cons_append, List.append_assoc, List.cons.injEq, true_and] at heq
        -- A closing parenthesis binds nothing, so the phrases inside end at the same one.
        obtain ⟨htrees, hrests⟩ := h.unique h' heq (by simp [binding]) (by simp [binding])
        exact ⟨htrees, by simpa using hrests⟩
    | _ => simp at heq
termination_by structural _ _ h => h

theorem Comparison.unique : ∀ {left : List Token} {a : Expression}, Comparison left a →
    ∀ {left' rest rest' : List Token} {b : Expression}, Comparison left' b →
    left ++ rest = left' ++ rest' → Stops 3 rest → Stops 3 rest' → a = b ∧ rest = rest'
  | _, _, .operand h, _, _, _, _, .operand h', heq, hrest, hrest' =>
    h.unique h' heq (hrest.mono (by decide)) (hrest'.mono (by decide))
  | _, _, .operand h, _, _, _, _, .compared hop ha _, heq, hrest, _ => by
    rw [List.append_assoc] at heq
    -- The operand is the left one of the comparison, but then the operator stands behind it.
    obtain ⟨-, rfl⟩ := h.unique ha heq (hrest.mono (by decide))
      (by simp [binding_comparison hop])
    simp [binding_comparison hop] at hrest
  | _, _, .compared hop ha _, _, _, _, _, .operand h', heq, _, hrest' => by
    rw [List.append_assoc] at heq
    obtain ⟨-, rfl⟩ := ha.unique h' heq (by simp [binding_comparison hop])
      (hrest'.mono (by decide))
    simp [binding_comparison hop] at hrest'
  | _, _, .compared hop ha hb, _, _, _, _, .compared hop' ha' hb', heq, hrest, hrest' => by
    simp only [List.append_assoc, List.cons_append] at heq
    obtain ⟨rfl, hrights⟩ := ha.unique ha' heq (by simp [binding_comparison hop])
      (by simp [binding_comparison hop'])
    simp only [List.cons.injEq, Token.operator.injEq] at hrights
    obtain ⟨rfl, hrights⟩ := hrights
    obtain ⟨rfl, rfl⟩ := hb.unique hb' hrights (hrest.mono (by decide)) (hrest'.mono (by decide))
    exact ⟨rfl, rfl⟩
termination_by structural _ _ h => h

theorem Negation.unique : ∀ {left : List Token} {a : Expression}, Negation left a →
    ∀ {left' rest rest' : List Token} {b : Expression}, Negation left' b →
    left ++ rest = left' ++ rest' → Stops 3 rest → Stops 3 rest' → a = b ∧ rest = rest'
  | _, _, .negated h, _, _, _, _, .negated h', heq, hrest, hrest' => by
    obtain ⟨rfl, rfl⟩ := h.unique h' (List.cons.inj heq).2 hrest hrest'
    exact ⟨rfl, rfl⟩
  | _, _, .negated _, _, _, _, _, .comparison h', heq, _, _ => by
    rcases List.append_eq_cons_iff.mp heq.symm with ⟨rfl, _⟩ | ⟨tail, hleft, _⟩
    · exact absurd rfl h'.ne_nil
    · exact absurd hleft (h'.ne_notSign tail)
  | _, _, .comparison h, _, _, _, _, .negated _, heq, _, _ => by
    rcases List.append_eq_cons_iff.mp heq with ⟨rfl, _⟩ | ⟨tail, hleft, _⟩
    · exact absurd rfl h.ne_nil
    · exact absurd hleft (h.ne_notSign tail)
  | _, _, .comparison h, _, _, _, _, .comparison h', heq, hrest, hrest' =>
    h.unique h' heq hrest hrest'
termination_by structural _ _ h => h

theorem Conjuncts.unique :
    ∀ {left : List Token} {a : Expression} {as : List Expression}, Conjuncts left a as →
    ∀ {left' rest rest' : List Token} {b : Expression} {bs : List Expression}, Conjuncts left' b bs →
    left ++ rest = left' ++ rest' → Stops 2 rest → Stops 2 rest' → a = b ∧ as = bs ∧ rest = rest'
  | _, _, _, .last h, _, _, _, _, _, .last h', heq, hrest, hrest' => by
    obtain ⟨rfl, rfl⟩ := h.unique h' heq (hrest.mono (by decide)) (hrest'.mono (by decide))
    exact ⟨rfl, rfl, rfl⟩
  | _, _, _, .last h, _, _, _, _, _, .and ha _, heq, hrest, _ => by
    rw [List.append_assoc] at heq
    obtain ⟨-, rfl⟩ := h.unique ha heq (hrest.mono (by decide)) (by simp [binding])
    simp [binding] at hrest
  | _, _, _, .and ha _, _, _, _, _, _, .last h', heq, _, hrest' => by
    rw [List.append_assoc] at heq
    obtain ⟨-, rfl⟩ := ha.unique h' heq (by simp [binding]) (hrest'.mono (by decide))
    simp [binding] at hrest'
  | _, _, _, .and ha hb, _, _, _, _, _, .and ha' hb', heq, hrest, hrest' => by
    simp only [List.append_assoc, List.cons_append] at heq
    obtain ⟨rfl, hrights⟩ := ha.unique ha' heq (by simp [binding]) (by simp [binding])
    obtain ⟨rfl, rfl, rfl⟩ := hb.unique hb' (List.cons.inj hrights).2 hrest hrest'
    exact ⟨rfl, rfl, rfl⟩
termination_by structural _ _ _ h => h

theorem Conjunction.unique : ∀ {left : List Token} {a : Expression}, Conjunction left a →
    ∀ {left' rest rest' : List Token} {b : Expression}, Conjunction left' b →
    left ++ rest = left' ++ rest' → Stops 2 rest → Stops 2 rest' → a = b ∧ rest = rest'
  | _, _, .chained h, _, _, _, _, .chained h', heq, hrest, hrest' => by
    obtain ⟨rfl, rfl, rfl⟩ := h.unique h' heq hrest hrest'
    exact ⟨rfl, rfl⟩
termination_by structural _ _ h => h

theorem Disjuncts.unique :
    ∀ {left : List Token} {a : Expression} {as : List Expression}, Disjuncts left a as →
    ∀ {left' rest rest' : List Token} {b : Expression} {bs : List Expression}, Disjuncts left' b bs →
    left ++ rest = left' ++ rest' → Stops 1 rest → Stops 1 rest' → a = b ∧ as = bs ∧ rest = rest'
  | _, _, _, .last h, _, _, _, _, _, .last h', heq, hrest, hrest' => by
    obtain ⟨rfl, rfl⟩ := h.unique h' heq (hrest.mono (by decide)) (hrest'.mono (by decide))
    exact ⟨rfl, rfl, rfl⟩
  | _, _, _, .last h, _, _, _, _, _, .or ha _, heq, hrest, _ => by
    rw [List.append_assoc] at heq
    obtain ⟨-, rfl⟩ := h.unique ha heq (hrest.mono (by decide)) (by simp [binding])
    simp [binding] at hrest
  | _, _, _, .or ha _, _, _, _, _, _, .last h', heq, _, hrest' => by
    rw [List.append_assoc] at heq
    obtain ⟨-, rfl⟩ := ha.unique h' heq (by simp [binding]) (hrest'.mono (by decide))
    simp [binding] at hrest'
  | _, _, _, .or ha hb, _, _, _, _, _, .or ha' hb', heq, hrest, hrest' => by
    simp only [List.append_assoc, List.cons_append] at heq
    obtain ⟨rfl, hrights⟩ := ha.unique ha' heq (by simp [binding]) (by simp [binding])
    obtain ⟨rfl, rfl, rfl⟩ := hb.unique hb' (List.cons.inj hrights).2 hrest hrest'
    exact ⟨rfl, rfl, rfl⟩
termination_by structural _ _ _ h => h

theorem Disjunction.unique : ∀ {left : List Token} {a : Expression}, Disjunction left a →
    ∀ {left' rest rest' : List Token} {b : Expression}, Disjunction left' b →
    left ++ rest = left' ++ rest' → Stops 1 rest → Stops 1 rest' → a = b ∧ rest = rest'
  | _, _, .chained h, _, _, _, _, .chained h', heq, hrest, hrest' => by
    obtain ⟨rfl, rfl, rfl⟩ := h.unique h' heq hrest hrest'
    exact ⟨rfl, rfl⟩
termination_by structural _ _ h => h

end

end Grammar

end Questionnaire
