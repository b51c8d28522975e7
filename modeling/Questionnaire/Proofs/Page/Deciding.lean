import Questionnaire.Proofs.Condition.Reading
import Questionnaire.Proofs.Page.Routing
import Questionnaire.Proofs.State.Merging

/-!
# What a decision depends on

An expression is explained alike wherever the fields that it reads are found alike. A page looks for a
field in its section and then in the whole state (`Page.places`), and decides where it leads by what it
finds there for the fields that its guards read.
-/

namespace Questionnaire

/-! ## Guards and routes -/

/-- The expression that a guard evaluates. -/
def Guard.expression : Guard → Expression
  | .named name => .condition name
  | .inline _ expression => expression

theorem Compiled.explain_eq_of_reads {registry : Registry} (h : Compiled registry) {e : Expression}
    {context context' : EvaluationContext}
    (hsame : ∀ path, ReadsField registry e path → context.lookup? path = context'.lookup? path) :
    registry.explain e context = registry.explain e context' := by
  rw [Registry.explain, Registry.explain, h.trace_eq h (fun _ => rfl) hsame]

theorem Guard.explain_eq_of_reads {conditions : Registry} (h : Compiled conditions) {guard : Guard}
    {context context' : EvaluationContext}
    (hsame : ∀ path, ReadsField conditions guard.expression path →
      context.lookup? path = context'.lookup? path) :
    guard.explain conditions context = guard.explain conditions context' := by
  cases guard with
  | inline source e => exact h.explain_eq_of_reads hsame
  | named name =>
      have hname : conditions.explain (.condition name) context =
          conditions.explain (.condition name) context' := h.explain_eq_of_reads hsame
      rw [Guard.explain, Guard.explain, hname]

theorem decideFrom_congr {conditions : Registry} {context context' : EvaluationContext}
    {routes : List Route} (default : String)
    (h : ∀ route ∈ routes, ∀ guard, route.guard = some guard →
      guard.explain conditions context = guard.explain conditions context') (i : Nat) :
    decideFrom conditions context default i routes =
      decideFrom conditions context' default i routes := by
  induction routes generalizing i with
  | nil => rfl
  | cons route rest ih =>
      obtain ⟨hfirst, hrest⟩ := List.forall_mem_cons.mp h
      rw [decideFrom, decideFrom, ih hrest (i + 1)]
      cases hguard : route.guard with
      | none => rfl
      | some guard => simp only [hfirst guard hguard]

/-! ## Pages -/

namespace Page

/-- A guard of one of the page's routes may read a field. -/
def ReadsField (page : Page) (path : FieldPath) : Prop :=
  ∃ route ∈ page.routes, ∃ guard, route.guard = some guard ∧
    Questionnaire.ReadsField page.conditions guard.expression path

/-- Where in the state the page looks for a field: in its section, and then at the top. -/
def places (page : Page) (path : FieldPath) : List FieldPath :=
  (page.sectionName?.map fun name => ⟨name, path.segments⟩).toList ++ [path]

/-- The page's conditions see at a field what the first of its places holds that holds anything. -/
theorem lookup?_evaluationContext (page : Page) (state : State) (path : FieldPath) :
    (page.evaluationContext state).lookup? path = (page.places path).findSome? state.at? := by
  rw [EvaluationContext.lookup?, evaluationContext, places]
  cases page.sectionName? with
  | none => simp
  | some name =>
      have hsection : ((state.get? name).bind Json.obj?).bind (State.at? · path) =
          state.at? ⟨name, path.segments⟩ :=
        (State.at?_cons state name path.first path.rest).symm
      simp only [Option.bind_some, hsection]
      show _ = List.findSome? state.at? [⟨name, path.segments⟩, path]
      rw [List.findSome?_cons]
      cases state.at? ⟨name, path.segments⟩ <;> simp

end Page

/-- A decision depends on nothing but the answers that it reads. Where every field that an expression
reads, itself or through references, is found alike or missing, the expression is traced alike, down to
the error, holds alike, and is explained in the same words. So a page leads the same way, for the same
reason, in any two states that hold the same for the fields that its guards read. -/
theorem Registry.decision_eq_of_reads {definitions : List ConditionDefinition} {registry : Registry}
    (h : compile definitions = .ok registry) :
    (∀ e context context',
      (∀ path, ReadsField registry e path → context.lookup? path = context'.lookup? path) →
        registry.trace e context = registry.trace e context' ∧
          registry.holds e context = registry.holds e context' ∧
          registry.explain e context = registry.explain e context') ∧
    ∀ (page : Page) state state', page.conditions = registry →
      (∀ path, page.ReadsField path →
        (page.places path).findSome? (State.at? state) =
          (page.places path).findSome? (State.at? state')) →
        page.nextDecision state = page.nextDecision state' := by
  have hcompiled := compiled_of_compile h
  refine ⟨fun e context context' hsame => ?_, fun page state state' hpage hsame => ?_⟩
  · have htrace := hcompiled.trace_eq hcompiled (fun _ => rfl) hsame
    exact ⟨htrace, by rw [holds, holds, htrace], hcompiled.explain_eq_of_reads hsame⟩
  · subst hpage
    refine decideFrom_congr _ (fun route hroute guard hguard => ?_) 0
    refine Guard.explain_eq_of_reads hcompiled fun path hpath => ?_
    rw [Page.lookup?_evaluationContext, Page.lookup?_evaluationContext]
    exact hsame path ⟨route, hroute, guard, hguard, hpath⟩

namespace Page

/-- Answers like those about the child in all that the page about a visitor reads: what is asked
outside the section is hidden by it, or not read. -/
def otherChildState : State :=
  [("group", .str "senior"), ("note", .obj []),
    ("visitor", .obj [("group", .str "child"), ("invited", .bool true), ("name", .str "Ann")])]

theorem readsField_isGuest {path : FieldPath}
    (h : Questionnaire.ReadsField visitorConditions isGuest path) :
    path = ⟨"group", []⟩ ∨ path = ⟨"invited", []⟩ := by
  cases h with
  | direct h => exact .inr (List.mem_singleton.mp h)
  | reference hname hc h =>
      obtain rfl := List.mem_singleton.mp hname
      cases hc
      cases h with
      | direct h => exact .inl (List.mem_singleton.mp h)
      | reference hname => exact nomatch hname

theorem readsField_visitorPage {path : FieldPath} (h : visitorPage.ReadsField path) :
    path = ⟨"group", []⟩ ∨ path = ⟨"invited", []⟩ := by
  obtain ⟨route, hroute, guard, hguard, h⟩ := h
  simp only [visitorPage, List.mem_cons, List.not_mem_nil, or_false] at hroute
  rcases hroute with rfl | rfl | rfl | rfl <;> cases hguard
  · -- The guard that names the condition reads what the guard of guests reads through it.
    refine readsField_isGuest ?_
    cases h with
    | direct h => exact nomatch h
    | reference hname hc h => exact .reference hname hc h
  · exact readsField_isGuest h

theorem decision_eq_of_reads_visitor :
    Registry.compile [⟨"adult", "group == 'adult'"⟩] = .ok visitorConditions ∧
      (∀ path, visitorPage.ReadsField path →
        (visitorPage.places path).findSome? (State.at? childState) =
          (visitorPage.places path).findSome? (State.at? otherChildState)) ∧
      visitorPage.nextDecision childState = visitorPage.nextDecision otherChildState ∧
      visitorConditions.trace isGuest (visitorPage.evaluationContext childState) =
        visitorConditions.trace isGuest (visitorPage.evaluationContext otherChildState) := by
  have hconditions : Registry.compile [⟨"adult", "group == 'adult'"⟩] = .ok visitorConditions := by
    with_unfolding_all rfl
  have hsame (path : FieldPath) (hpath : path = ⟨"group", []⟩ ∨ path = ⟨"invited", []⟩) :
      (visitorPage.places path).findSome? (State.at? childState) =
        (visitorPage.places path).findSome? (State.at? otherChildState) := by
    rcases hpath with rfl | rfl <;> with_unfolding_all rfl
  obtain ⟨hexpressions, hpages⟩ := Registry.decision_eq_of_reads hconditions
  have hreads : ∀ path, visitorPage.ReadsField path → _ :=
    fun path hpath => hsame path (readsField_visitorPage hpath)
  refine ⟨hconditions, hreads, hpages visitorPage _ _ rfl hreads, ?_⟩
  refine (hexpressions isGuest _ _ fun path hpath => ?_).1
  rw [lookup?_evaluationContext, lookup?_evaluationContext]
  exact hsame path (readsField_isGuest hpath)

end Page

end Questionnaire
