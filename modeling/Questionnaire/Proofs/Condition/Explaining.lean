import Questionnaire.Condition.Explanation
import Questionnaire.Proofs.Condition.Tracing

/-!
# Explanations follow the printed expression

The printed expression is cut into pieces, so that its fields and references stand apart from the text
around them, parentheses included (`Expression.pieces`). One writing of the pieces is the printed
expression (`Piece.Plain`). The other shows what an evaluation saw, the value of a field and the
outcome of a reference with the explanation of its condition (`Piece.Explained`); as long as no operand
was skipped, it is the trace in print (`Trace.Opens.written`).
-/

namespace Questionnaire

/-- A piece of a printed expression. -/
inductive Piece where
  | text (s : String)
  | field (path : FieldPath)
  | reference (name : String)

/-- Whether a piece is text that stands for itself. -/
def Piece.isText : Piece → Bool
  | .text _ => true
  | .field _ | .reference _ => false

/-- Pieces are written one after another, each as `R` says. -/
inductive Written (R : Piece → String → Prop) : List Piece → String → Prop
  | nil : Written R [] ""
  | cons {piece : Piece} {pieces : List Piece} {s rest : String} (h : R piece s)
      (hrest : Written R pieces rest) : Written R (piece :: pieces) (s ++ rest)

/-- Parentheses around pieces, where `parenthesise` puts them around a text. -/
def enclosePieces (own place : Nat) (pieces : List Piece) : List Piece :=
  if own < place then .text "(" :: (pieces ++ [.text ")"]) else pieces

/-- Parentheses are text. -/
theorem filter_enclosePieces (own place : Nat) (pieces : List Piece) :
    (enclosePieces own place pieces).filter (!·.isText) = pieces.filter (!·.isText) := by
  rw [enclosePieces]
  split
  · simp [Piece.isText]
  · rfl

namespace Written

variable {R : Piece → String → Prop}

theorem single {piece : Piece} {s : String} (h : R piece s) : Written R [piece] s := by
  simpa using Written.cons h .nil

theorem append {pieces pieces' : List Piece} {s s' : String} (h : Written R pieces s)
    (h' : Written R pieces' s') : Written R (pieces ++ pieces') (s ++ s') := by
  induction h with
  | nil => simpa using h'
  | cons hpiece _ ih => simpa only [List.cons_append, String.append_assoc] using .cons hpiece ih

/-- Where texts stand for themselves, parentheses around the pieces stand around what they are written
as. -/
theorem enclose (htext : ∀ s, R (.text s) s) {pieces : List Piece} {s : String}
    (h : Written R pieces s) (own place : Nat) :
    Written R (enclosePieces own place pieces) (parenthesise own place s) := by
  rw [enclosePieces, parenthesise]
  split
  · rw [String.append_assoc]
    exact .cons (htext "(") (h.append (.single (htext ")")))
  · exact h

/-- Between what two operands are written as stands the operator. -/
theorem operator (htext : ∀ s, R (.text s) s) {left right : List Piece} {l r : String}
    (hleft : Written R left l) (op : Operator) (hright : Written R right r) :
    Written R (left ++ .text (" " ++ op.symbol ++ " ") :: right)
      (l ++ " " ++ op.symbol ++ " " ++ r) := by
  simpa only [String.append_assoc] using
    hleft.append (.cons (htext (" " ++ op.symbol ++ " ")) hright)

end Written

namespace Expression

/-- The pieces of an expression in print, at a place that asks for a precedence. -/
def piecesAt (place : Nat) (e : Expression) : List Piece :=
  enclosePieces e.precedence place <|
    match e with
    | .literal value => [.text value.display]
    | .field path => [.field path]
    | .condition name => [.reference name]
    | .not operand => .text "not " :: operand.piecesAt 8
    | .binary op left right =>
      left.piecesAt op.precedence ++
        .text (" " ++ op.symbol ++ " ") :: right.piecesAt (op.precedence + 1)

/-- The pieces of an expression in print. -/
def pieces (e : Expression) : List Piece :=
  e.piecesAt 0

/-- The fields and references of an expression, from left to right. -/
def leaves : Expression → List Piece
  | .literal _ => []
  | .field path => [.field path]
  | .condition name => [.reference name]
  | .not e => e.leaves
  | .binary _ l r => l.leaves ++ r.leaves

theorem filter_piecesAt (place : Nat) (e : Expression) :
    (e.piecesAt place).filter (!·.isText) = e.leaves := by
  induction e generalizing place with
  | literal _ | field _ | condition _ => exact filter_enclosePieces ..
  | not operand ih => exact (filter_enclosePieces ..).trans (ih 8)
  | binary op left right ihl ihr =>
      have hr := ihr (op.precedence + 1)
      refine (filter_enclosePieces ..).trans ?_
      rw [List.filter_append, ihl, leaves, ← hr]
      rfl

end Expression

namespace Piece

/-- How printed expressions write a piece. -/
inductive Plain : Piece → String → Prop
  | text (s : String) : Plain (.text s) s
  | field (path : FieldPath) : Plain (.field path) path.dotted
  | reference (name : String) : Plain (.reference name) ("@" ++ name)

/-- How explanations write a piece: a field with the value that it has in the context, a reference with
the outcome of its condition and the explanation of that. -/
inductive Explained (registry : Registry) (context : EvaluationContext) : Piece → String → Prop
  | text (s : String) : Explained registry context (.text s) s
  | field {path : FieldPath} {value : Value} (h : context.Reads path value) :
      Explained registry context (.field path) (path.display ++ " (was " ++ value.display ++ ")")
  | reference {name : String} {c : Condition} {body : Trace} (hc : registry.get? name = some c)
      (hbody : registry.trace c.expression context = .ok body) :
      Explained registry context (.reference name)
        ("@" ++ name ++ " (was " ++ (Value.bool body.outcome.isTruthy).display ++ ": " ++
          body.display ++ ")")

end Piece

/-- The printed expression is written piece by piece. -/
theorem Expression.written_plain (place : Nat) (e : Expression) :
    Written Piece.Plain (e.piecesAt place) (e.displayAt place) := by
  induction e generalizing place with
  | literal value => exact .enclose .text (.single (.text _)) _ _
  | field path => exact .enclose .text (.single (.field path)) _ _
  | condition name => exact .enclose .text (.single (.reference name)) _ _
  | not operand ih => exact .enclose .text (.cons (.text _) (ih 8)) _ _
  | binary op left right ihl ihr =>
      have hl := ihl op.precedence
      have hr := ihr (op.precedence + 1)
      exact .enclose .text (hl.operator .text op hr) _ _

section

variable {registry : Registry} {context : EvaluationContext} {t : Trace} {e : Expression}

/-- An operator is shown with both operands, if the right one was not skipped. -/
theorem Trace.displayAt_binary {op : Operator} {l r : Trace} {outcome : Bool} (hr : r ≠ .skipped)
    (place : Nat) :
    (Trace.binary op l r outcome).displayAt place =
      parenthesise op.precedence place
        (l.displayAt op.precedence ++ " " ++ op.symbol ++ " " ++
          r.displayAt (op.precedence + 1)) := by
  cases r <;> first | rfl | exact absurd rfl hr

/-- A trace without gaps that accounts for an expression shows what has been read, in the pieces of the
expression. -/
theorem Trace.Opens.written (hcompiled : Compiled registry) (h : t.Opens registry e)
    (hhonest : ∀ node ∈ t.nodes, node.Honest context) (hfull : .skipped ∉ t.nodes) (place : Nat) :
    Written (Piece.Explained registry context) (e.piecesAt place) (t.displayAt place) := by
  induction h generalizing place with
  | literal value => exact .enclose .text (.single (.text _)) _ _
  | field path value =>
      have hreads : context.Reads path value := hhonest _ (List.mem_singleton_self _)
      exact .enclose .text (.single (.field hreads)) _ _
  | condition hc hbody _ =>
      obtain ⟨rfl, hhonestBody⟩ := List.forall_mem_cons.mp hhonest
      have htrace := hcompiled.accounts_iff.mpr ⟨hbody, hhonestBody⟩
      exact .enclose .text (.single (.reference hc htrace)) _ _
  | not hoperand ih =>
      have hhonestOperand := (List.forall_mem_cons.mp hhonest).2
      have hfullOperand := fun hmem => hfull (List.mem_cons_of_mem _ hmem)
      exact .enclose .text (.cons (.text _) (ih hhonestOperand hfullOperand 8)) _ _
  | @binary op _ _ _ _ _ _ hright ihl ihr =>
      have hhonestBoth := List.forall_mem_append.mp (List.forall_mem_cons.mp hhonest).2
      have hfullLeft := fun hmem => hfull (List.mem_cons_of_mem _ (List.mem_append_left _ hmem))
      have hfullRight := fun hmem => hfull (List.mem_cons_of_mem _ (List.mem_append_right _ hmem))
      have hl := ihl hhonestBoth.1 hfullLeft op.precedence
      have hr := ihr hhonestBoth.2 hfullRight (op.precedence + 1)
      rw [Trace.displayAt_binary hright.ne_skipped]
      exact .enclose .text (hl.operator .text op hr) _ _
  | skipping _ _ => exact absurd (by simp [Trace.nodes]) hfull

end

namespace Registry

/-- Explanations and printed expressions agree. The printed expression consists of pieces, of which one
stands for each field and one for each reference, in their order; written with what an evaluation saw
in the place of these, the same pieces are the trace in print. All other text, parentheses included,
is common to both. -/
theorem display_follows_expression {definitions : List ConditionDefinition} {registry : Registry}
    (h : compile definitions = .ok registry) {e : Expression} {context : EvaluationContext}
    {t : Trace} (ht : registry.trace e context = .ok t) (hfull : .skipped ∉ t.nodes) :
    e.pieces.filter (!·.isText) = e.leaves ∧
      Written Piece.Plain e.pieces e.display ∧
      Written (Piece.Explained registry context) e.pieces t.display := by
  have hcompiled := compiled_of_compile h
  obtain ⟨hopens, hhonest⟩ := hcompiled.accounts_iff.mp ht
  exact ⟨e.filter_piecesAt 0, e.written_plain 0, hopens.written hcompiled hhonest hfull 0⟩

/-- The reference's body starts without parentheses of its own; those around `or` are in both. -/
theorem display_follows_expression_married :
    ∃ e t, statusRegistry.parse "(single or children) and name < 'm'" "page" = .ok e ∧
      let context : EvaluationContext := ⟨some [("children", .bool true)],
        [("name", .str "ada"), ("status", .str "married")]⟩
      statusRegistry.trace e context = .ok t ∧ e.display = "(@single or children) and name < 'm'" ∧
        t.display = "(@single (was false: not @married (was true: $status (was 'married') == " ++
          "'married')) or $children (was true)) and $name (was 'ada') < 'm'" ∧
        Written (Piece.Explained statusRegistry context) e.pieces t.display := by
  let married : Trace :=
    .binary .equal (.field ⟨"status", []⟩ (.text "married")) (.literal (.text "married")) true
  let single : Trace := .condition "single" (.not (.condition "married" married true) false) false
  let early : Trace := .binary .less (.field ⟨"name", []⟩ (.text "ada")) (.literal (.text "m")) true
  refine ⟨.binary .and (.binary .or (.condition "single") (.field ⟨"children", []⟩))
      (.binary .less (.field ⟨"name", []⟩) (.literal (.text "m"))),
    .binary .and (.binary .or single (.field ⟨"children", []⟩ (.bool true)) true) early true,
    by with_unfolding_all rfl, by with_unfolding_all rfl, by with_unfolding_all rfl, by with_unfolding_all rfl, ?_⟩
  refine (display_follows_expression compile_statusRules (by with_unfolding_all rfl) ?_).2.2
  simp [Trace.nodes, single, married, early]

end Registry

end Questionnaire
