import Questionnaire.Proofs.Component.Compiled
import Questionnaire.Proofs.Condition.InPlace

/-!
# Where a page leads

What a page's routes say as they are written (`RouteDefinition.isOpen`, `chosenRoute?`), and that the
compiled page follows it. Compiling puts the guarded routes in front, so each route is tried at a place
of its own (`triedAt`); a guard that names a condition is asked through a reference to it, which holds
as the condition does.
-/

namespace Questionnaire

/-! ## Routes as they are written -/

/-- Whether the text of a guard holds: a declared condition if it is the name of one, and an
expression otherwise. A text that is neither holds nowhere. -/
def Registry.guardHolds (conditions : Registry) (page text : String) (context : EvaluationContext) :
    Bool :=
  if conditions.has text then conditions.evaluate text context
  else
    match conditions.parse text page with
    | .ok e => conditions.holds e context
    | .error _ => false

theorem Registry.guardHolds_of_has {conditions : Registry} {text : String}
    (h : conditions.has text = true) (page : String) (context : EvaluationContext) :
    conditions.guardHolds page text context = conditions.evaluate text context := by
  rw [guardHolds, if_pos h]

theorem Registry.guardHolds_of_parse {conditions : Registry} {page text : String} {e : Expression}
    (h : conditions.has text = false) (hparse : conditions.parse text page = .ok e)
    (context : EvaluationContext) :
    conditions.guardHolds page text context = conditions.holds e context := by
  rw [guardHolds, h, hparse]
  rfl

/-- Whether a route has a guard that holds. -/
def RouteDefinition.isOpen (conditions : Registry) (page : String) (context : EvaluationContext)
    (r : RouteDefinition) : Bool :=
  r.guard.any fun text => conditions.guardHolds page text context

theorem RouteDefinition.isSome_of_isOpen {conditions : Registry} {page : String}
    {context : EvaluationContext} {r : RouteDefinition}
    (h : r.isOpen conditions page context = true) : r.guard.isSome = true := by
  rw [isOpen] at h
  cases hguard : r.guard with
  | none =>
      rw [hguard] at h
      exact nomatch h
  | some text => rfl

/-- The route to take, by its index: the first that is open, or else the first without a guard. -/
def chosenRoute? (isOpen : RouteDefinition → Bool) (routes : List RouteDefinition) : Option Nat :=
  (routes.findIdx? isOpen).or (routes.findIdx? (·.guard.isNone))

theorem exists_of_chosenRoute? {isOpen : RouteDefinition → Bool} {routes : List RouteDefinition}
    {i : Nat} (h : chosenRoute? isOpen routes = some i) : ∃ r, routes[i]? = some r := by
  rcases Option.or_eq_some_iff.mp h with h | ⟨-, h⟩ <;>
  · obtain ⟨hi, -⟩ := List.findIdx?_eq_some_iff_getElem.mp h
    exact ⟨routes[i], List.getElem?_eq_getElem hi⟩

/-- The place at which the route of an index is tried. -/
def triedAt (routes : List RouteDefinition) (i : Nat) : Nat :=
  let before := routes.take i
  if (routes[i]?.bind RouteDefinition.guard).isSome then before.countP (·.guard.isSome)
  else routes.countP (·.guard.isSome) + before.countP (·.guard.isNone)

/-! ## Places after filtering -/

theorem getElem?_filter_countP {α : Type} {q : α → Bool} {l : List α} {i : Nat} {a : α}
    (h : l[i]? = some a) (ha : q a = true) : (l.filter q)[(l.take i).countP q]? = some a := by
  induction l generalizing i with
  | nil => exact nomatch h
  | cons b rest ih =>
      cases i with
      | zero =>
          cases h
          simp [ha]
      | succ i =>
          rw [List.getElem?_cons_succ] at h
          rw [List.take_succ_cons, List.filter_cons, List.countP_cons]
          cases q b with
          | true => exact ih h
          | false => exact ih h

theorem findIdx?_filter {α : Type} (p q : α → Bool) (l : List α) :
    (l.filter q).findIdx? p =
      (l.findIdx? fun a => q a && p a).map fun i => (l.take i).countP q := by
  induction l with
  | nil => rfl
  | cons a rest ih =>
      rw [List.filter_cons, List.findIdx?_cons]
      cases hq : q a with
      | true => cases hp : p a <;> simp [hp, hq, ih, List.findIdx?_cons, Function.comp_def]
      | false => simp [hq, ih, Function.comp_def]

section

variable {routes : List RouteDefinition} {i : Nat} {r : RouteDefinition}

theorem triedAt_of_guarded (h : routes[i]? = some r) (hr : r.guard.isSome = true) :
    triedAt routes i = (routes.take i).countP (·.guard.isSome) := by
  rw [triedAt, h]
  exact if_pos hr

theorem triedAt_of_unguarded (h : routes[i]? = some r) (hr : r.guard.isNone = true) :
    triedAt routes i =
      routes.countP (·.guard.isSome) + (routes.take i).countP (·.guard.isNone) := by
  rw [triedAt, h]
  exact if_neg (by simpa using hr)

/-- Every route is tried, at its own place. -/
theorem getElem?_guardedFirst (h : routes[i]? = some r) :
    (guardedFirst routes)[triedAt routes i]? = some r := by
  rw [guardedFirst]
  cases hr : r.guard.isSome with
  | true =>
      have hplace := getElem?_filter_countP (q := fun r => r.guard.isSome) h hr
      rw [triedAt_of_guarded h hr, List.getElem?_append_left (List.getElem?_eq_some_iff.mp hplace).1]
      exact hplace
  | false =>
      have hnone : r.guard.isNone = true := by simpa using hr
      rw [triedAt_of_unguarded h hnone, List.countP_eq_length_filter,
        List.getElem?_append_right (Nat.le_add_right ..), Nat.add_sub_cancel_left]
      exact getElem?_filter_countP h hnone

end

/-- The first route that is open or has no guard, in the order in which they are tried, is the chosen
one. -/
theorem findIdx?_guardedFirst {isOpen : RouteDefinition → Bool}
    (hopen : ∀ r, isOpen r = true → r.guard.isSome = true) (routes : List RouteDefinition) :
    (guardedFirst routes).findIdx? (fun r => r.guard.isNone || isOpen r) =
      (chosenRoute? isOpen routes).map (triedAt routes) := by
  have hguarded : (fun r : RouteDefinition => r.guard.isSome && (r.guard.isNone || isOpen r)) =
      isOpen := by
    funext r
    cases hr : r.guard with
    | none => simpa [hr] using mt (hopen r)
    | some text => rfl
  have hunguarded : (fun r : RouteDefinition => r.guard.isNone && (r.guard.isNone || isOpen r)) =
      fun r => r.guard.isNone := by
    funext r
    cases r.guard <;> rfl
  rw [guardedFirst, List.findIdx?_append, findIdx?_filter, findIdx?_filter, hguarded, hunguarded,
    chosenRoute?]
  cases hfirst : routes.findIdx? isOpen with
  | some i =>
      obtain ⟨hi, hisOpen, -⟩ := List.findIdx?_eq_some_iff_getElem.mp hfirst
      have hplace := triedAt_of_guarded (List.getElem?_eq_getElem hi) (hopen _ hisOpen)
      simp [hplace]
  | none =>
      cases hnext : routes.findIdx? (·.guard.isNone) with
      | none => rfl
      | some i =>
          obtain ⟨hi, hnone, -⟩ := List.findIdx?_eq_some_iff_getElem.mp hnext
          have hplace := triedAt_of_unguarded (List.getElem?_eq_getElem hi) hnone
          simp [hplace, List.countP_eq_length_filter, Nat.add_comm]

/-! ## Compiled routes -/

theorem Registry.holds_explain (conditions : Registry) (e : Expression)
    (context : EvaluationContext) :
    (conditions.explain e context).holds = conditions.holds e context := by
  rw [explain, holds]
  cases conditions.trace e context <;> rfl

/-- A reference to a declared condition holds as the condition does. -/
theorem Registry.holds_condition {conditions : Registry} (h : Compiled conditions) {name : String}
    (hname : conditions.has name = true) (context : EvaluationContext) :
    conditions.holds (.condition name) context = conditions.evaluate name context := by
  obtain ⟨c, hc⟩ := Option.isSome_iff_exists.mp hname
  rw [evaluate, hc, holds_eq, verdict_condition h hc, ← holds_eq]

/-- Whether a compiled route is taken when it is tried. -/
def Route.isOpen (conditions : Registry) (context : EvaluationContext) (route : Route) : Bool :=
  route.guard.all fun guard => (guard.explain conditions context).holds

section

variable {conditions : Registry} {page : String} {r : RouteDefinition} {route : Route}

theorem path_of_compileRoute (h : compileRoute conditions page r = .ok route) :
    route.path = r.path := by
  unfold compileRoute at h
  split at h
  · cases h
    rfl
  · split at h
    · exact nomatch h
    · cases h
      rfl

theorem holds_of_compileGuard (hcompiled : Compiled conditions) {text : String} {guard : Guard}
    (h : compileGuard conditions page text = .ok guard) (context : EvaluationContext) :
    (guard.explain conditions context).holds = conditions.guardHolds page text context := by
  unfold compileGuard at h
  cases hname : conditions.has text with
  | true =>
      rw [hname] at h
      cases h
      rw [Guard.explain, if_pos hname, Registry.holds_explain,
        Registry.holds_condition hcompiled hname, Registry.guardHolds_of_has hname]
  | false =>
      rw [hname] at h
      cases hparse : conditions.parse text page with
      | error e =>
          rw [hparse] at h
          exact nomatch h
      | ok e =>
          rw [hparse] at h
          cases h
          rw [Guard.explain, Registry.holds_explain, Registry.guardHolds_of_parse hname hparse]

/-- A compiled route is taken when it has no guard, or one that holds as it is written. -/
theorem isOpen_of_compileRoute (hcompiled : Compiled conditions)
    (h : compileRoute conditions page r = .ok route) (context : EvaluationContext) :
    route.isOpen conditions context = (r.guard.isNone || r.isOpen conditions page context) := by
  unfold compileRoute at h
  cases hguard : r.guard with
  | none =>
      rw [hguard] at h
      cases h
      rfl
  | some text =>
      rw [hguard] at h
      cases hcompile : compileGuard conditions page text with
      | error e =>
          simp only [hcompile] at h
          exact nomatch h
      | ok guard =>
          simp only [hcompile] at h
          cases h
          rw [RouteDefinition.isOpen, hguard]
          exact holds_of_compileGuard hcompiled hcompile context

end

/-! ## Decisions -/

theorem findIdx?_of_forall₂ {α β : Type} {R : α → β → Prop} {p : α → Bool} {q : β → Bool}
    (hpq : ∀ a b, R a b → p a = q b) {l : List α} {l' : List β} (h : List.Forall₂ R l l') :
    l.findIdx? p = l'.findIdx? q := by
  induction h with
  | nil => rfl
  | cons hab _ ih => rw [List.findIdx?_cons, List.findIdx?_cons, hpq _ _ hab, ih]

theorem getElem?_of_forall₂ {α β : Type} {R : α → β → Prop} {l : List α} {l' : List β}
    (h : List.Forall₂ R l l') {i : Nat} {a : α} (ha : l[i]? = some a) :
    ∃ b, l'[i]? = some b ∧ R a b := by
  obtain ⟨hi, rfl⟩ := List.getElem?_eq_some_iff.mp ha
  have hi' : i < l'.length := h.length_eq ▸ hi
  exact ⟨l'[i], List.getElem?_eq_getElem hi', h.get hi hi'⟩

section

variable {conditions : Registry} {context : EvaluationContext} (default : String)

theorem decideFrom_cons_of_open {route : Route} (h : route.isOpen conditions context = true)
    (rest : List Route) (i : Nat) :
    (decideFrom conditions context default i (route :: rest)).path = route.path ∧
      (decideFrom conditions context default i (route :: rest)).rule = some i := by
  rw [decideFrom]
  cases hguard : route.guard with
  | none => exact ⟨rfl, rfl⟩
  | some guard =>
      have hholds : (guard.explain conditions context).holds = true := by
        rwa [Route.isOpen, hguard] at h
      simp [hholds]

theorem decideFrom_cons_of_closed {route : Route} (h : route.isOpen conditions context = false)
    (rest : List Route) (i : Nat) :
    decideFrom conditions context default i (route :: rest) =
      decideFrom conditions context default (i + 1) rest := by
  rw [decideFrom]
  cases hguard : route.guard with
  | none =>
      rw [Route.isOpen, hguard] at h
      exact nomatch h
  | some guard =>
      have hholds : (guard.explain conditions context).holds = false := by
        rwa [Route.isOpen, hguard] at h
      simp [hholds]

/-- The first open route is taken, by its place. -/
theorem decideFrom_of_open {routes : List Route} {k : Nat} {route : Route}
    (hfirst : routes.findIdx? (Route.isOpen conditions context) = some k)
    (hroute : routes[k]? = some route) (i : Nat) :
    (decideFrom conditions context default i routes).path = route.path ∧
      (decideFrom conditions context default i routes).rule = some (i + k) := by
  induction routes generalizing i k with
  | nil => exact nomatch hfirst
  | cons first rest ih =>
      rw [List.findIdx?_cons] at hfirst
      cases hopen : first.isOpen conditions context with
      | true =>
          rw [hopen] at hfirst
          cases hfirst
          cases hroute
          exact decideFrom_cons_of_open default hopen rest i
      | false =>
          rw [hopen] at hfirst
          obtain ⟨k, hrest, rfl⟩ := Option.map_eq_some_iff.mp hfirst
          rw [decideFrom_cons_of_closed default hopen, Nat.add_comm k 1, ← Nat.add_assoc]
          exact ih hrest hroute (i + 1)

/-- The default path is taken when no route is open. -/
theorem decideFrom_of_closed {routes : List Route}
    (hnone : routes.findIdx? (Route.isOpen conditions context) = none) (i : Nat) :
    decideFrom conditions context default i routes =
      ⟨default, none, "no route matched; using the default"⟩ := by
  induction routes generalizing i with
  | nil => rfl
  | cons first rest ih =>
      rw [List.findIdx?_cons] at hnone
      cases hopen : first.isOpen conditions context with
      | true =>
          rw [hopen] at hnone
          exact nomatch hnone
      | false =>
          rw [hopen] at hnone
          rw [decideFrom_cons_of_closed default hopen]
          exact ih (Option.map_eq_none_iff.mp hnone) (i + 1)

end

/-! ## Navigation -/

/-- What the conditions of a page see, by the definition of the page: the object that the state holds
for the page's section, if it holds one, in front of the whole state. -/
def PageDefinition.evaluationContext (d : PageDefinition) (state : State) : EvaluationContext :=
  ⟨d.sectionName.bind fun name => (state.get? name).bind Json.obj?, state⟩

namespace Page

section

variable {d : PageDefinition} {sections : List SectionDefinition} {context : CompileContext}
  {conditions : Registry} {options : Options} {page : Page}

theorem sectionName?_of_compile (h : compile d sections context conditions options = .ok page) :
    page.sectionName? = d.sectionName := by
  obtain ⟨_, _, _, hfound, -, -, rfl⟩ := compile_eq_ok_iff.mp h
  exact (section_of_findSection hfound).1

theorem routes_of_compile (h : compile d sections context conditions options = .ok page) :
    compileRoutes conditions d.path d.routes = .ok page.routes ∧ page.conditions = conditions ∧
      page.options = options := by
  obtain ⟨_, _, _, -, -, hroutes, rfl⟩ := compile_eq_ok_iff.mp h
  exact ⟨hroutes, rfl, rfl⟩

/-- Navigation follows the routes as they are written. The page leads along the first route whose guard
holds, or else the first without a guard, and to the default path if there is neither; the decision
points at the place of that route among the compiled ones. A guard holds as the condition of its name
does, or as the expression that it spells, in the page's section and the whole state. -/
theorem next_eq_chosen {definitions : List ConditionDefinition}
    (hconditions : Registry.compile definitions = .ok conditions)
    (h : compile d sections context conditions options = .ok page) (state : State) :
    let isOpen := RouteDefinition.isOpen conditions d.path (d.evaluationContext state)
    (∀ i, chosenRoute? isOpen d.routes = some i → ∃ r route, d.routes[i]? = some r ∧
      page.routes[triedAt d.routes i]? = some route ∧ compileRoute conditions d.path r = .ok route ∧
      page.next state = r.path ∧ (page.nextDecision state).rule = some (triedAt d.routes i)) ∧
    (chosenRoute? isOpen d.routes = none →
      page.next state = options.defaultNextPath ∧ (page.nextDecision state).rule = none) := by
  intro isOpen
  obtain ⟨hroutes, rfl, rfl⟩ := routes_of_compile h
  have hall := Except.mapM_eq_ok_iff.mp hroutes
  have hcontext : page.evaluationContext state = d.evaluationContext state := by
    rw [evaluationContext, sectionName?_of_compile h, PageDefinition.evaluationContext]
  have hfirst : page.routes.findIdx? (Route.isOpen page.conditions (d.evaluationContext state)) =
      (chosenRoute? isOpen d.routes).map (triedAt d.routes) := by
    rw [← findIdx?_guardedFirst fun r => RouteDefinition.isSome_of_isOpen]
    refine (findIdx?_of_forall₂ (fun r route hroute => ?_) hall).symm
    exact (isOpen_of_compileRoute (Registry.compiled_of_compile hconditions) hroute _).symm
  refine ⟨fun i hchosen => ?_, fun hchosen => ?_⟩
  · rw [hchosen] at hfirst
    obtain ⟨r, hr⟩ := exists_of_chosenRoute? hchosen
    obtain ⟨route, hroute, hcompile⟩ := getElem?_of_forall₂ hall (getElem?_guardedFirst hr)
    obtain ⟨hpath, hrule⟩ := decideFrom_of_open page.options.defaultNextPath hfirst hroute 0
    refine ⟨r, route, hr, hroute, hcompile, ?_, ?_⟩
    · rw [next, nextDecision, hcontext, decideRoute, hpath, path_of_compileRoute hcompile]
    · rw [nextDecision, hcontext, decideRoute, hrule, Nat.zero_add]
  · rw [hchosen] at hfirst
    rw [next, nextDecision, hcontext, decideRoute, decideFrom_of_closed _ hfirst]
    exact ⟨rfl, rfl⟩

end

/-- What the routes of the page about a visitor refer to. -/
def visitorConditions : Registry :=
  let adult : Condition := ⟨"adult", "group == 'adult'",
    .binary .equal (.field ⟨"group", []⟩) (.literal (.text "adult"))⟩
  ⟨[adult], [adult]⟩

/-- A page about a visitor. Its first route is tried third. -/
def visitor : PageDefinition :=
  { path := "/visitor"
    sectionName := some "visitor"
    routes := [⟨"/other", none⟩, ⟨"/adult", some "adult"⟩, ⟨"/guest", some "invited and not adult"⟩,
      ⟨"/last", none⟩] }

/-- The guard of guests. -/
def isGuest : Expression :=
  .binary .and (.field ⟨"invited", []⟩) (.not (.condition "adult"))

theorem parse_isGuest :
    visitorConditions.parse "invited and not adult" "/visitor" = .ok isGuest := by with_unfolding_all rfl

/-- The page about a visitor, compiled. -/
def visitorPage : Page where
  path := "/visitor"
  title := ""
  inSection := some ⟨"visitor", "Visitor"⟩
  components := []
  routes := [⟨"/adult", some (.named "adult")⟩,
    ⟨"/guest", some (.inline "invited and not adult" isGuest)⟩, ⟨"/other", none⟩, ⟨"/last", none⟩]
  conditions := visitorConditions
  options := {}

theorem compile_visitor :
    compile visitor [⟨"visitor", "Visitor"⟩] ⟨[], .builtin, "/visitor"⟩ visitorConditions {} =
      .ok visitorPage := by
  have hguest : compileRoute visitorConditions "/visitor"
      ⟨"/guest", some "invited and not adult"⟩ =
        .ok ⟨"/guest", some (.inline "invited and not adult" isGuest)⟩ := by
    simp only [compileRoute, compileGuard, parse_isGuest]
    rfl
  have hroutes : compileRoutes visitorConditions visitor.path visitor.routes =
      .ok visitorPage.routes := by
    show List.mapM (compileRoute visitorConditions "/visitor") [_, _, _, _] = _
    simp only [List.mapM_cons, List.mapM_nil, hguest]
    rfl
  simp only [compile, hroutes]
  rfl

/-- Answers about an invited child. The group is asked again in the section, where it hides the one
that is asked outside. -/
def childState : State :=
  [("group", .str "adult"),
    ("visitor", .obj [("group", .str "child"), ("invited", .bool true)])]

theorem next_eq_chosen_visitor :
    Registry.compile [⟨"adult", "group == 'adult'"⟩] = .ok visitorConditions ∧
      compile visitor [⟨"visitor", "Visitor"⟩] ⟨[], .builtin, "/visitor"⟩ visitorConditions {} =
        .ok visitorPage ∧
      visitorPage.next childState = "/guest" ∧ (visitorPage.nextDecision childState).rule = some 1 := by
  have hconditions : Registry.compile [⟨"adult", "group == 'adult'"⟩] = .ok visitorConditions := by
    with_unfolding_all rfl
  have hadult : visitorConditions.guardHolds "/visitor" "adult"
      (visitor.evaluationContext childState) = false := by
    rw [Registry.guardHolds_of_has (by with_unfolding_all rfl)]
    with_unfolding_all rfl
  have hguest : visitorConditions.guardHolds "/visitor" "invited and not adult"
      (visitor.evaluationContext childState) = true := by
    rw [Registry.guardHolds_of_parse (by with_unfolding_all rfl) parse_isGuest]
    with_unfolding_all rfl
  have hchosen : chosenRoute? (RouteDefinition.isOpen visitorConditions visitor.path
      (visitor.evaluationContext childState)) visitor.routes = some 2 := by
    generalize visitor.evaluationContext childState = context at hadult hguest
    simp [chosenRoute?, visitor, RouteDefinition.isOpen, List.findIdx?_cons, hadult, hguest]
  obtain ⟨r, route, hr, -, -, hnext, hrule⟩ :=
    (next_eq_chosen hconditions compile_visitor childState).1 2 hchosen
  obtain rfl := Option.some.inj hr
  exact ⟨hconditions, compile_visitor, hnext, hrule⟩

end Page

end Questionnaire
