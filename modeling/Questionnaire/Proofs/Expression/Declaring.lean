import Questionnaire.Proofs.Expression.Nesting

/-!
# Declaring more conditions

Which conditions there are decides two things: which paths of a single name are references, and which
names may stand behind `@`. The tree of a text depends on neither, so an expression read where some
conditions are known is read where more are known as well, and it is the same up to the paths that
the added ones name (`parse_of_subset`).
-/

namespace Questionnaire

/-- A field of a single name that one of the conditions has. -/
def FieldPath.IsNamed (known : List String) (path : FieldPath) : Prop :=
  path.rest = [] ∧ path.first ∈ known

namespace Expression

theorem resolve_field_of_isNamed {known : List String} {path : FieldPath}
    (h : path.IsNamed known) : (field path).resolve known = .condition path.first :=
  if_pos h

theorem resolve_field_of_not_isNamed {known : List String} {path : FieldPath}
    (h : ¬ path.IsNamed known) : (field path).resolve known = .field path :=
  if_neg h

/-- What some conditions leave to be a field, more of them may name. -/
theorem resolve_resolve {known more : List String} (hmore : known ⊆ more) (e : Expression) :
    (e.resolve known).resolve more = e.resolve more := by
  induction e with
  | literal value => rfl
  | condition name => rfl
  | field path =>
      by_cases h : path.IsNamed known
      · have hnamed : path.IsNamed more := ⟨h.1, hmore h.2⟩
        rw [resolve_field_of_isNamed h, resolve_field_of_isNamed hnamed]
        rfl
      · rw [resolve_field_of_not_isNamed h]
  | not operand ih => simp only [resolve, ih]
  | binary op left right ihl ihr => simp only [resolve, ihl, ihr]

/-- The fields that remain are those that no condition names. -/
theorem mem_fields_resolve {known : List String} {e : Expression} {path : FieldPath} :
    path ∈ (e.resolve known).fields ↔ path ∈ e.fields ∧ ¬ path.IsNamed known := by
  induction e with
  | literal value => simp [resolve, fields]
  | condition name => simp [resolve, fields]
  | field other =>
      by_cases h : other.IsNamed known
      · rw [resolve_field_of_isNamed h]
        simp only [fields, List.not_mem_nil, List.mem_singleton, false_iff, not_and, not_not]
        rintro rfl
        exact h
      · rw [resolve_field_of_not_isNamed h]
        simp only [fields, List.mem_singleton]
        exact ⟨fun heq => ⟨heq, heq ▸ h⟩, And.left⟩
  | not operand ih => exact ih
  | binary op left right ihl ihr =>
      simp only [resolve, fields, List.mem_append, ihl, ihr]
      tauto

/-- An expression stays as it is where no condition names one of its fields, and only there. -/
theorem resolve_eq_self_iff {known : List String} {e : Expression} :
    e.resolve known = e ↔ ∀ path ∈ e.fields, ¬ path.IsNamed known := by
  constructor
  · intro h path hpath
    exact (mem_fields_resolve.mp (h ▸ hpath)).2
  · intro h
    induction e with
    | literal value => rfl
    | condition name => rfl
    | field path => exact resolve_field_of_not_isNamed (h path (List.mem_singleton_self path))
    | not operand ih => simp only [resolve, ih h]
    | binary op left right ihl ihr =>
        obtain ⟨hleft, hright⟩ := List.forall_mem_append.mp h
        simp only [resolve, ihl hleft, ihr hright]

end Expression

/-- An expression that is read where some conditions are known is read where more are known: its
fields of a single name that one of these has are references then, and nothing else changes. So
nothing at all changes exactly if the conditions name none of its fields. -/
theorem parse_of_subset {known more : List String} (hmore : known ⊆ more) {source : String}
    {e : Expression} (h : Expression.parse known source = .ok e) :
    Expression.parse more source = .ok (e.resolve more) ∧
      (Expression.parse more source = .ok e ↔ ∀ path ∈ e.fields, ¬ path.IsNamed more) := by
  obtain ⟨ts, tree, hlexes, htree, hknown, rfl⟩ := parse_iff_lexes.mp h
  have hparse : Expression.parse more source = .ok ((tree.resolve known).resolve more) :=
    parse_iff_lexes.mpr ⟨ts, tree, hlexes, htree, fun name hname => hmore (hknown name hname),
      (Expression.resolve_resolve hmore tree).symm⟩
  refine ⟨hparse, ?_⟩
  rw [hparse, Except.ok.injEq]
  exact Expression.resolve_eq_self_iff

/-- Once it is declared who is an adult, the word alone is a reference; a member of that name stays a
field, and what was a reference stays one. -/
theorem parse_of_subset_adult :
    Expression.parse ["guest"] "adult and not (@guest or visit.adult == 'yes')" =
        .ok (.binary .and (.field ⟨"adult", []⟩) (.not (.binary .or (.condition "guest")
          (.binary .equal (.field ⟨"visit", ["adult"]⟩) (.literal (.text "yes")))))) ∧
      Expression.parse ["adult", "guest"] "adult and not (@guest or visit.adult == 'yes')" =
        .ok (.binary .and (.condition "adult") (.not (.binary .or (.condition "guest")
          (.binary .equal (.field ⟨"visit", ["adult"]⟩) (.literal (.text "yes")))))) := by
  have h : Expression.parse ["guest"] "adult and not (@guest or visit.adult == 'yes')" =
      .ok (.binary .and (.field ⟨"adult", []⟩) (.not (.binary .or (.condition "guest")
        (.binary .equal (.field ⟨"visit", ["adult"]⟩) (.literal (.text "yes")))))) := by with_unfolding_all rfl
  have hmore : ["guest"] ⊆ ["adult", "guest"] := List.subset_cons_self ..
  exact ⟨h, (parse_of_subset hmore h).1⟩

end Questionnaire
