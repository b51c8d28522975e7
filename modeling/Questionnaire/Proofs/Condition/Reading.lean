import Questionnaire.Proofs.Condition.Evaluation

/-!
# What an evaluation reads

The fields that an expression reads are those that it names and, reference by reference, those that
the conditions name to which it refers (`ReadsField`). An evaluation looks at nothing else: not at
other fields, and of the registry only at which condition each name has. Along references the rank
falls, so this goes by induction on the rank (`Compiled.trace_eq`).
-/

namespace Questionnaire

/-- Evaluating an expression may read a field: the expression names it, or refers to a condition that
may read it. -/
inductive ReadsField (registry : Registry) : Expression → FieldPath → Prop
  | direct {e : Expression} {path : FieldPath} (h : path ∈ e.fields) : ReadsField registry e path
  | reference {e : Expression} {name : String} {c : Condition} {path : FieldPath}
      (hname : name ∈ e.conditions) (hc : registry.get? name = some c)
      (h : ReadsField registry c.expression path) : ReadsField registry e path

namespace Compiled

variable {registry registry' : Registry} {context context' : EvaluationContext} {e : Expression}

/-- An expression whose references all rank below a bound is traced alike where each name has the same
condition and the fields that the expression reads are found alike. -/
theorem trace_eq_of_rank_lt (h : Compiled registry) (h' : Compiled registry')
    (hget : ∀ name, registry.get? name = registry'.get? name) {bound : Nat}
    (hrank : ∀ name ∈ e.conditions, rank registry.ordered name < bound)
    (hsame : ∀ path, ReadsField registry e path → context.lookup? path = context'.lookup? path) :
    registry.trace e context = registry'.trace e context' := by
  induction bound generalizing e with
  | zero =>
      exact trace_congr_of_lookup (fun path hpath => hsame path (.direct hpath))
        fun name hname => absurd (hrank name hname) (Nat.not_lt_zero _)
  | succ bound ih =>
      refine trace_congr_of_lookup (fun path hpath => hsame path (.direct hpath)) fun name hname => ?_
      rw [h.follows context name, h'.follows context' name, ← hget name]
      cases hc : registry.get? name with
      | none => rfl
      | some c =>
          -- The references of `c` rank below its own name, and `e` reads whatever `c` does.
          refine ih (fun reference hreference => ?_) fun path hpath =>
            hsame path (.reference hname hc hpath)
          exact Nat.lt_of_lt_of_le (h.rank_lt hc hreference) (Nat.le_of_lt_succ (hrank name hname))

theorem trace_eq (h : Compiled registry) (h' : Compiled registry')
    (hget : ∀ name, registry.get? name = registry'.get? name)
    (hsame : ∀ path, ReadsField registry e path → context.lookup? path = context'.lookup? path) :
    registry.trace e context = registry'.trace e context' :=
  h.trace_eq_of_rank_lt h' hget (fun _ _ => Nat.lt_succ_of_le (rank_le_length _ _)) hsame

end Compiled

end Questionnaire
