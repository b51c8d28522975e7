import Questionnaire.Proofs.Expression.Parsing
import Questionnaire.Proofs.Expression.Printing

/-!
# Tokens and how deep they stand

The tokens of a phrase without its parentheses, each with the number of parentheses around it
(`levels`). Whatever parentheses a phrase has, these tokens come in the order of its tree, and an
operand of a comparison that is not a single value stands deeper than its operator (`Spelled`,
`Disjunction.laid`). So they show what reading cannot have dropped.
-/

namespace Questionnaire

open Grammar

/-- The tokens that are not parentheses, each with the number of parentheses around it. -/
def levels : Nat → List Token → List (Token × Nat)
  | _, [] => []
  | depth, .leftParen :: ts => levels (depth + 1) ts
  | depth, .rightParen :: ts => levels (depth - 1) ts
  | depth, token :: ts => (token, depth) :: levels depth ts

@[simp] theorem levels_leftParen (depth : Nat) (ts : List Token) :
    levels depth (.leftParen :: ts) = levels (depth + 1) ts := rfl

@[simp] theorem levels_rightParen (depth : Nat) (ts : List Token) :
    levels depth (.rightParen :: ts) = levels (depth - 1) ts := rfl

/-- Whether a token is a parenthesis. -/
def Token.isParen : Token → Bool
  | .leftParen | .rightParen => true
  | _ => false

theorem levels_cons {token : Token} (h : token.isParen = false) (depth : Nat) (ts : List Token) :
    levels depth (token :: ts) = (token, depth) :: levels depth ts := by
  cases token <;> first | rfl | exact nomatch h

theorem levels_append {used : List Token} (h : ∀ token ∈ used, token.isParen = false)
    (depth : Nat) (ts : List Token) :
    levels depth (used ++ ts) = used.map (·, depth) ++ levels depth ts := by
  induction used with
  | nil => rfl
  | cons token used ih =>
      obtain ⟨htoken, hused⟩ := List.forall_mem_cons.mp h
      rw [List.cons_append, levels_cons htoken, ih hused]
      rfl

/-- All tokens stand at least, or deeper than, a level. -/
def Deep (depth : Nat) (ats : List (Token × Nat)) : Prop :=
  ∀ at' ∈ ats, depth ≤ at'.2

/-- The tokens of a tree, without the parentheses: an operand of a comparison is a single value or
stands deeper than the operator. -/
inductive Spelled : Expression → List (Token × Nat) → Prop
  | number (x : Extended64) (depth : Nat) : Spelled (.literal (.number x)) [(.number x, depth)]
  | text (s : String) (depth : Nat) : Spelled (.literal (.text s)) [(.text s, depth)]
  | literal {word : String} {value : Value} (h : (word, value) ∈ literalWords) (depth : Nat) :
      Spelled (.literal value) [(.word word, depth)]
  | path {first : String} (h : first ∉ literalWords.map Prod.fst) (names : List String)
      (depth : Nat) :
      Spelled (.field ⟨first, names⟩) ((.word first :: pointedNames names).map (·, depth))
  | reference (name : String) (depth : Nat) :
      Spelled (.condition name) [(.atSign, depth), (.word name, depth)]
  | not {a : Expression} {ats : List (Token × Nat)} (ha : Spelled a ats) (depth : Nat) :
      Spelled (.not a) ((.notSign, depth) :: ats)
  | binary {op : Operator} {a b : Expression} {ats bts : List (Token × Nat)} {depth : Nat}
      (ha : Spelled a ats) (hb : Spelled b bts)
      (henclosed : op.isComparison = true →
        (a.IsValue ∨ Deep (depth + 1) ats) ∧ (b.IsValue ∨ Deep (depth + 1) bts)) :
      Spelled (.binary op a b) (ats ++ (.operator op, depth) :: bts)

/-- The tokens of a phrase that stands at some depth, whatever follows it. -/
def LaidAt (ts : List Token) (depth : Nat) (ats : List (Token × Nat)) : Prop :=
  ∀ rest, levels depth (ts ++ rest) = ats ++ levels depth rest

/-- A phrase has the tokens of a tree, none of them outside the phrase's parentheses. -/
def Laid (ts : List Token) (tree : Expression) : Prop :=
  ∀ depth, ∃ ats, LaidAt ts depth ats ∧ Spelled tree ats ∧ Deep depth ats

/-- An operand has the tokens of a tree, all inside parentheses unless it is a single value. -/
def LaidOperand (ts : List Token) (tree : Expression) : Prop :=
  ∀ depth, ∃ ats, LaidAt ts depth ats ∧ Spelled tree ats ∧ Deep depth ats ∧
    (tree.IsValue ∨ Deep (depth + 1) ats)

theorem Deep.mono {depth depth' : Nat} {ats : List (Token × Nat)} (h : Deep depth ats)
    (hle : depth' ≤ depth) : Deep depth' ats :=
  fun at' hat => Nat.le_trans hle (h at' hat)

theorem LaidOperand.laid {ts : List Token} {tree : Expression} (h : LaidOperand ts tree) :
    Laid ts tree := by
  intro depth
  obtain ⟨ats, hats, htree, hdeep, -⟩ := h depth
  exact ⟨ats, hats, htree, hdeep⟩

/-- Tokens that are no parentheses, as a phrase. -/
theorem laidOperand_of_value {ts : List Token} {tree : Expression}
    (h : ∀ token ∈ ts, token.isParen = false) (htree : ∀ depth, Spelled tree (ts.map (·, depth)))
    (hvalue : tree.IsValue) : LaidOperand ts tree := by
  intro depth
  refine ⟨ts.map (·, depth), levels_append h depth, htree depth, ?_, .inl hvalue⟩
  simp [Deep]

theorem Laid.parenthesised {ts : List Token} {tree : Expression} (h : Laid ts tree) :
    LaidOperand (.leftParen :: ts ++ [.rightParen]) tree := by
  intro depth
  obtain ⟨ats, hats, htree, hdeep⟩ := h (depth + 1)
  refine ⟨ats, fun rest => ?_, htree, hdeep.mono (Nat.le_succ depth), .inr hdeep⟩
  simp [hats (.rightParen :: rest)]

theorem Deep.binary {op : Operator} {depth : Nat} {ats bts : List (Token × Nat)}
    (ha : Deep depth ats) (hb : Deep depth bts) :
    Deep depth (ats ++ (.operator op, depth) :: bts) := by
  intro at' hat
  rcases List.mem_append.mp hat with hat | hat
  · exact ha at' hat
  · rcases List.mem_cons.mp hat with rfl | hat
    · exact Nat.le_refl depth
    · exact hb at' hat

theorem LaidAt.binary {op : Operator} {left right : List Token} {depth : Nat}
    {ats bts : List (Token × Nat)} (ha : LaidAt left depth ats) (hb : LaidAt right depth bts) :
    LaidAt (left ++ .operator op :: right) depth (ats ++ (.operator op, depth) :: bts) := by
  intro rest
  rw [List.append_assoc, ha, List.cons_append, levels_cons rfl, hb]
  simp

theorem LaidOperand.compared {op : Operator} {left right : List Token} {a b : Expression}
    (ha : LaidOperand left a) (hb : LaidOperand right b) :
    Laid (left ++ .operator op :: right) (.binary op a b) := by
  intro depth
  obtain ⟨ats, hats, hatree, hadeep, hainside⟩ := ha depth
  obtain ⟨bts, hbts, hbtree, hbdeep, hbinside⟩ := hb depth
  exact ⟨_, hats.binary hbts, .binary hatree hbtree fun _ => ⟨hainside, hbinside⟩,
    hadeep.binary hbdeep⟩

theorem Laid.binary (op : Operator) (hop : op.isComparison = false) {left right : List Token}
    {a b : Expression} (ha : Laid left a) (hb : Laid right b) :
    Laid (left ++ .operator op :: right) (.binary op a b) := by
  intro depth
  obtain ⟨ats, hats, hatree, hadeep⟩ := ha depth
  obtain ⟨bts, hbts, hbtree, hbdeep⟩ := hb depth
  refine ⟨_, hats.binary hbts, .binary hatree hbtree fun h => ?_, hadeep.binary hbdeep⟩
  rw [hop] at h
  exact nomatch h

theorem Laid.not {ts : List Token} {tree : Expression} (h : Laid ts tree) :
    Laid (.notSign :: ts) (.not tree) := by
  intro depth
  obtain ⟨ats, hats, htree, hdeep⟩ := h depth
  refine ⟨(.notSign, depth) :: ats, fun rest => ?_, .not htree depth, ?_⟩
  · rw [List.cons_append, levels_cons rfl, hats]
    rfl
  · exact List.forall_mem_cons.mpr ⟨Nat.le_refl depth, hdeep⟩

theorem isParen_pointedNames (names : List String) :
    ∀ token ∈ pointedNames names, token.isParen = false := by
  induction names with
  | nil => simp
  | cons name names ih =>
      exact List.forall_mem_cons.mpr ⟨rfl, List.forall_mem_cons.mpr ⟨rfl, ih⟩⟩

namespace Grammar

mutual

theorem Operand.laid : ∀ {ts : List Token} {tree : Expression}, Operand ts tree →
    LaidOperand ts tree
  | _, _, .number x => laidOperand_of_value (by simp [Token.isParen]) (.number x) rfl
  | _, _, .text s => laidOperand_of_value (by simp [Token.isParen]) (.text s) rfl
  | _, _, .literal hword => laidOperand_of_value (by simp [Token.isParen]) (.literal hword) rfl
  | _, _, .path hfirst names =>
    laidOperand_of_value (List.forall_mem_cons.mpr ⟨rfl, isParen_pointedNames names⟩)
      (.path hfirst names) rfl
  | _, _, .reference name => laidOperand_of_value (by simp [Token.isParen]) (.reference name) rfl
  | _, _, .parenthesised h => h.laid.parenthesised
termination_by structural _ _ h => h

theorem Comparison.laid : ∀ {ts : List Token} {tree : Expression}, Comparison ts tree →
    Laid ts tree
  | _, _, .operand h => h.laid.laid
  | _, _, .compared _ ha hb => ha.laid.compared hb.laid
termination_by structural _ _ h => h

theorem Negation.laid : ∀ {ts : List Token} {tree : Expression}, Negation ts tree → Laid ts tree
  | _, _, .negated h => h.laid.not
  | _, _, .comparison h => h.laid
termination_by structural _ _ h => h

/-- A chain is laid out behind any first part, so that it can associate to the left. -/
theorem Conjuncts.laid : ∀ {ts : List Token} {tree : Expression} {others : List Expression},
    Conjuncts ts tree others → Laid ts (others.foldl (.binary .and) tree) ∧
      ∀ {left first}, Laid left first →
        Laid (left ++ .operator .and :: ts) (others.foldl (.binary .and) (.binary .and first tree))
  | _, _, _, .last h => ⟨h.laid, fun hfirst => hfirst.binary .and rfl h.laid⟩
  | _, _, _, .and ha hb =>
    ⟨hb.laid.2 ha.laid, fun hfirst => by
      have hleft := hb.laid.2 (hfirst.binary .and rfl ha.laid)
      rwa [List.append_assoc] at hleft⟩
termination_by structural _ _ _ h => h

theorem Conjunction.laid : ∀ {ts : List Token} {tree : Expression}, Conjunction ts tree →
    Laid ts tree
  | _, _, .chained h => h.laid.1
termination_by structural _ _ h => h

theorem Disjuncts.laid : ∀ {ts : List Token} {tree : Expression} {others : List Expression},
    Disjuncts ts tree others → Laid ts (others.foldl (.binary .or) tree) ∧
      ∀ {left first}, Laid left first →
        Laid (left ++ .operator .or :: ts) (others.foldl (.binary .or) (.binary .or first tree))
  | _, _, _, .last h => ⟨h.laid, fun hfirst => hfirst.binary .or rfl h.laid⟩
  | _, _, _, .or ha hb =>
    ⟨hb.laid.2 ha.laid, fun hfirst => by
      have hleft := hb.laid.2 (hfirst.binary .or rfl ha.laid)
      rwa [List.append_assoc] at hleft⟩
termination_by structural _ _ _ h => h

theorem Disjunction.laid : ∀ {ts : List Token} {tree : Expression}, Disjunction ts tree →
    Laid ts tree
  | _, _, .chained h => h.laid.1
termination_by structural _ _ h => h

end

end Grammar

/-! ## What has been read -/

theorem mem_of_mem_levels {token : Token} {level : Nat} {ts : List Token} :
    ∀ (depth : Nat), (token, level) ∈ levels depth ts → token ∈ ts := by
  induction ts with
  | nil => intro depth h; exact nomatch h
  | cons first ts ih =>
      intro depth h
      cases hparen : first.isParen with
      | false =>
          rw [levels_cons hparen] at h
          rcases List.mem_cons.mp h with h | h
          · exact List.mem_cons.mpr (.inl (Prod.mk.inj h).1)
          · exact List.mem_cons_of_mem _ (ih depth h)
      | true =>
          cases first with
          | leftParen => exact List.mem_cons_of_mem _ (ih (depth + 1) h)
          | rightParen => exact List.mem_cons_of_mem _ (ih (depth - 1) h)
          | _ => exact nomatch hparen

theorem mem_pointedNames {name : String} {names : List String} (h : name ∈ names) :
    .word name ∈ pointedNames names :=
  List.mem_flatMap.mpr ⟨name, h, by simp⟩

/-- Words of a tree's tokens are its names. -/
theorem Spelled.resolved {known : List String} {tree : Expression} {ats : List (Token × Nat)}
    (h : Spelled tree ats)
    (hwords : ∀ at' ∈ ats, ∀ w, at'.1 = .word w → ∀ c ∈ w.toList, isWordPart c = true)
    (hknown : ∀ name ∈ tree.conditions, name ∈ known) : (tree.resolve known).Resolved known := by
  induction h with
  | number x => exact nofun
  | text s => exact nofun
  | literal hword =>
      rintro items rfl
      simp [literalWords] at hword
  | @path first hfirst names depth =>
      have hparts : ∀ name ∈ first :: names, ∀ c ∈ name.toList, isWordPart c = true := by
        intro name hname
        refine hwords (.word name, depth) (List.mem_map_of_mem ?_) name rfl
        rcases List.mem_cons.mp hname with rfl | hname
        · exact List.mem_cons_self
        · exact List.mem_cons_of_mem _ (mem_pointedNames hname)
      -- A path of a single known name has been read as a reference.
      by_cases hreference : names = [] ∧ first ∈ known
      · rw [Expression.resolve, if_pos hreference]
        exact ⟨hreference.2, hparts first List.mem_cons_self⟩
      · rw [Expression.resolve, if_neg hreference]
        exact ⟨hfirst, hreference, hparts⟩
  | reference name =>
      exact ⟨hknown name (List.mem_singleton_self name), hwords _ (.tail _ (.head _)) name rfl⟩
  | not _ _ ih => exact ih (fun at' hat => hwords at' (.tail _ hat)) hknown
  | binary _ _ _ iha ihb =>
      obtain ⟨hleft, hright⟩ := List.forall_mem_append.mp hknown
      refine ⟨iha (fun at' hat => hwords at' (List.mem_append_left _ hat)) hleft,
        ihb (fun at' hat => hwords at' (List.mem_append_right _ (.tail _ hat))) hright⟩

/-- A text is read as the expression that its tokens are a phrase for. -/
theorem parse_iff_lexes {known : List String} {source : String} {e : Expression} :
    Expression.parse known source = .ok e ↔
      ∃ ts tree, Lexes source.toList ts ∧ Disjunction ts tree ∧
        (∀ name ∈ tree.conditions, name ∈ known) ∧ tree.resolve known = e := by
  have hlexes (ts : List Token) := lexes_iff 0 source.toList ts
  unfold Expression.parse tokens
  cases htokens : tokensFrom 0 source.toList with
  | error problem => simp [hlexes, htokens]
  | ok lexemes =>
      simp [hlexes, htokens, ofTokens_eq_ok_iff]

/-- What has been read is resolved. -/
theorem resolved_of_parse {known : List String} {source : String} {e : Expression}
    (h : Expression.parse known source = .ok e) : e.Resolved known := by
  obtain ⟨ts, tree, hlexes, htree, hknown, rfl⟩ := parse_iff_lexes.mp h
  obtain ⟨ats, hats, hspelled, -⟩ := htree.laid 0
  refine hspelled.resolved (fun at' hat w hw => ?_) hknown
  -- Every word of the tree is a word among the tokens of the text.
  have hlevels : levels 0 ts = ats := by simpa [levels] using hats []
  have hmem : (at'.1, at'.2) ∈ levels 0 ts := hlevels ▸ hat
  exact hlexes.isWordPart_of_word (hw ▸ mem_of_mem_levels 0 hmem)

end Questionnaire
