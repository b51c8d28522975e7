import Questionnaire.Model.Basic
import Questionnaire.Proofs.Component.OwnRule

/-!
# Compiled components

What is true of every question of a group that compiles, however deep the reveals go
(`forall_questions_of_compileGroup`). A registry whose tags all stand for built-in kinds
(`TypeRegistry.IsBuiltin`) compiles fields of built-in types alone (`isBuiltinField_of_compileGroup`),
a field chooses from one of the lists there are (`listFrom_of_compileGroup`), and what it reveals
stands under the indices of items of its list (`revealsByIndex_of_compileGroup`). A page, and a whole
questionnaire, compiles exactly when its parts do (`Page.compile_eq_ok_iff`,
`Model.compile_eq_ok_iff`).
-/

namespace Questionnaire

/-! ## Steps that succeed -/

theorem Except.bind_eq_ok_iff {α β ε : Type} {x : Except ε α} {f : α → Except ε β} {b : β} :
    x >>= f = .ok b ↔ ∃ a, x = .ok a ∧ f a = .ok b := by
  cases x with
  | error e =>
      constructor
      · intro h
        cases h
      · rintro ⟨a, ha, -⟩
        cases ha
  | ok a =>
      constructor
      · intro h
        exact ⟨a, rfl, h⟩
      · rintro ⟨a', ha, h⟩
        cases ha
        exact h

theorem Except.mapM_eq_ok_iff {α β ε : Type} {f : α → Except ε β} {l : List α}
    {results : List β} :
    l.mapM f = .ok results ↔ List.Forall₂ (fun a b => f a = .ok b) l results := by
  induction l generalizing results with
  | nil =>
      constructor
      · intro h
        cases h
        exact .nil
      · intro h
        cases h
        rfl
  | cons a rest ih =>
      rw [List.mapM_cons]
      constructor
      · intro h
        obtain ⟨b, hb, h⟩ := Except.bind_eq_ok_iff.mp h
        obtain ⟨others, hothers, h⟩ := Except.bind_eq_ok_iff.mp h
        cases h
        exact .cons hb (ih.mp hothers)
      · rintro (_ | ⟨hb, hothers⟩)
        exact Except.bind_eq_ok_iff.mpr
          ⟨_, hb, Except.bind_eq_ok_iff.mpr ⟨_, ih.mpr hothers, rfl⟩⟩

theorem exists_mem_of_forall₂ {α β : Type} {R : α → β → Prop} {l : List α} {results : List β}
    (h : List.Forall₂ R l results) {b : β} (hb : b ∈ results) : ∃ a ∈ l, R a b := by
  induction h with
  | nil => cases hb
  | cons hfirst _ ih =>
      rcases List.mem_cons.mp hb with rfl | hb
      · exact ⟨_, List.mem_cons_self .., hfirst⟩
      · obtain ⟨a, ha, hstep⟩ := ih hb
        exact ⟨a, List.mem_cons_of_mem _ ha, hstep⟩

/-- What a traversal gives comes from an element for which the step succeeds. -/
theorem exists_mem_of_mapM {α β ε : Type} {f : α → Except ε β} {l : List α} {results : List β}
    (h : l.mapM f = .ok results) {b : β} (hb : b ∈ results) : ∃ a ∈ l, f a = .ok b :=
  exists_mem_of_forall₂ (Except.mapM_eq_ok_iff.mp h) hb

theorem map_filterMap_sublist {α β γ : Type} {f : α → Option β} {g : β → γ} {g' : α → γ}
    (h : ∀ a b, f a = some b → g b = g' a) (items : List α) :
    ((items.filterMap f).map g).Sublist (items.map g') := by
  induction items with
  | nil => exact .slnil
  | cons a rest ih =>
      cases hfound : f a with
      | none =>
          rw [List.filterMap_cons_none hfound]
          exact ih.cons _
      | some b =>
          rw [List.filterMap_cons_some hfound, List.map_cons, List.map_cons, h a b hfound]
          exact ih.cons_cons _

/-! ## Built-in types -/

/-- Every tag stands for the kind of a built-in type. -/
def TypeRegistry.IsBuiltin (registry : TypeRegistry) : Prop :=
  ∀ entry ∈ registry.types, ∃ known ∈ builtinTypes, known.2 = entry.2

theorem TypeRegistry.isBuiltin_builtin : TypeRegistry.builtin.IsBuiltin :=
  fun entry hentry => ⟨entry, hentry, rfl⟩

theorem TypeRegistry.IsBuiltin.kind_ne_plain {registry : TypeRegistry} (h : registry.IsBuiltin)
    {tag : String} {kind : SingleKind} (hkind : registry.kind? tag = some (.single kind)) :
    kind ≠ .plain := by
  obtain ⟨before, after, htypes, -⟩ := List.lookup_eq_some_iff.mp hkind
  have hmem : (tag, ComponentKind.single kind) ∈ registry.types := by
    rw [htypes]
    exact List.mem_append_right _ (List.mem_cons_self ..)
  obtain ⟨known, hknown, hkind⟩ := h _ hmem
  have hbuiltin : ∀ known ∈ builtinTypes, known.2 ≠ .single .plain := by decide
  rintro rfl
  exact hbuiltin known hknown hkind

section

variable {context : CompileContext}

theorem eq_of_requireName {c compiled : Component} (h : requireName context c = .ok compiled) :
    compiled = c := by
  unfold requireName at h
  split at h
  · cases h
  · exact (Except.ok.inj h).symm

theorem eq_of_asGroup {components group : List Component}
    (h : asGroup context components = .ok group) : group = components := by
  unfold asGroup at h
  split at h
  · cases h
  · exact (Except.ok.inj h).symm

/-- What reveals compile to: for each item its index, its value and its components. -/
theorem forall₂_of_compileReveals {list : ListDefinition}
    {inner? : Option (ComponentDefinition → Except DefinitionError Component)}
    {revealing : List (Nat × Json × List ComponentDefinition)}
    {reveals : List (Nat × Json × List Component)}
    (h : compileReveals context list inner? revealing = .ok reveals) :
    List.Forall₂ (fun item entry => item.1 = entry.1 ∧ item.2.1 = entry.2.1 ∧
      ∃ inner ∈ inner?, item.2.2.mapM inner = .ok entry.2.2) revealing reveals := by
  unfold compileReveals at h
  split at h
  · cases h
    exact .nil
  · cases h
  · next item rest inner =>
    refine (Except.mapM_eq_ok_iff.mp h).imp ?_
    rintro ⟨i, value, definitions⟩ entry hstep
    change (definitions.mapM inner >>= fun components => asGroup context components >>=
      fun group => pure (i, value, group)) = .ok entry at hstep
    obtain ⟨components, hcomponents, hgrouped⟩ := Except.bind_eq_ok_iff.mp hstep
    obtain ⟨group, hgroup, hentry⟩ := Except.bind_eq_ok_iff.mp hgrouped
    obtain rfl := eq_of_asGroup hgroup
    obtain rfl := Except.ok.inj hentry
    exact ⟨rfl, rfl, inner, rfl, hcomponents⟩

/-- What a field reveals stands under the indices of different items of its list. -/
def Component.RevealsByIndex : Component → Prop
  | .single _ _ => True
  | .choice _ _ list reveals =>
    (reveals.map Prod.fst).Pairwise (· < ·) ∧ ∀ entry ∈ reveals, entry.1 < list.items.length

/-- A field that chooses does so from one of some lists. -/
def Component.ListFrom (lists : List ListDefinition) : Component → Prop
  | .single _ _ => True
  | .choice _ _ list _ => list ∈ lists

theorem indices_revealingItems (list : ListDefinition) :
    ((revealingItems list).map Prod.fst).Pairwise (· < ·) ∧
      ∀ entry ∈ revealingItems list, entry.1 < list.items.length := by
  have hsublist : ((revealingItems list).map Prod.fst).Sublist
      (List.range' 0 list.items.length) := by
    rw [← List.zipIdx_map_snd 0 list.items]
    refine map_filterMap_sublist (fun item entry h => ?_) _
    dsimp only at h
    split at h
    · rw [← Option.some.inj h]
    · cases h
  refine ⟨.sublist hsublist List.pairwise_lt_range', fun entry hentry => ?_⟩
  simpa using hsublist.subset (List.mem_map_of_mem hentry)

theorem revealsByIndex_of_forall₂ {variant : ChoiceVariant} {d : ComponentDefinition}
    {list : ListDefinition} {revealing : List (Nat × Json × List ComponentDefinition)}
    {reveals : List (Nat × Json × List Component)}
    (h : List.Forall₂ (fun item entry => item.1 = entry.1) revealing reveals)
    (hrevealing : revealing = revealingItems list ∨ revealing = []) :
    (Component.choice variant d list reveals).RevealsByIndex := by
  rcases hrevealing with rfl | rfl
  · obtain ⟨hindices, hbound⟩ := indices_revealingItems list
    have hsame : (revealingItems list).map Prod.fst = reveals.map Prod.fst := by
      rw [← List.forall₂_eq_eq_eq, List.forall₂_map_left_iff, List.forall₂_map_right_iff]
      exact h
    refine ⟨hsame ▸ hindices, fun entry hentry => ?_⟩
    obtain ⟨item, hitem, hindex⟩ := exists_mem_of_forall₂ h hentry
    exact hindex ▸ hbound item hitem
  · obtain rfl := List.forall₂_nil_left_iff.mp h
    exact ⟨.nil, fun _ hentry => absurd hentry List.not_mem_nil⟩

section

variable {P : Component → Prop}
  (single : ∀ {tag : String} {kind : SingleKind} (d : ComponentDefinition),
    context.types.kind? tag = some (.single kind) → (Component.single kind d).isForm = true →
      P (.single kind d))
  (choice : ∀ {variant : ChoiceVariant} {d : ComponentDefinition} {list : ListDefinition}
    {reveals : List (Nat × Json × List Component)}, context.listFor variant d = .ok list →
    (Component.choice variant d list reveals).RevealsByIndex → P (.choice variant d list reveals))

include single choice

theorem forall_questions_of_compileWith
    {inner? : Option (ComponentDefinition → Except DefinitionError Component)}
    (hinner : ∀ inner ∈ inner?, ∀ d c, inner d = .ok c → ∀ q ∈ c.questions, P q.field)
    {d : ComponentDefinition} {c : Component} (h : compileWith context inner? d = .ok c) :
    ∀ q ∈ c.questions, P q.field := by
  unfold compileWith at h
  split at h
  · cases h
  · next kind hkind =>
    obtain rfl := eq_of_requireName h
    intro q hq
    have hform := Component.isForm_of_mem_questions _ hq
    cases kind with
    | content variant => cases hq
    | _ =>
        obtain rfl := List.mem_singleton.mp hq
        exact single d hkind hform
  · next variant hkind =>
    obtain ⟨list, hlist, h⟩ := Except.bind_eq_ok_iff.mp h
    obtain ⟨reveals, hreveals, h⟩ := Except.bind_eq_ok_iff.mp h
    obtain rfl := eq_of_requireName h
    have hcompiled := forall₂_of_compileReveals hreveals
    intro q hq
    rcases List.mem_cons.mp hq with rfl | hq
    · have hrevealing : (if variant.reveals then revealingItems list else []) =
          revealingItems list ∨ (if variant.reveals then revealingItems list else []) = [] := by
        cases variant.reveals
        · exact Or.inr rfl
        · exact Or.inl rfl
      exact choice hlist
        (revealsByIndex_of_forall₂ (hcompiled.imp fun _ _ hstep => hstep.1) hrevealing)
    · obtain ⟨i, item, components, hentry, inside, hinside, rfl⟩ :=
        mem_revealedQuestions_iff.mp hq
      obtain ⟨revealing, -, -, -, inner, hinner?, hcomponents⟩ :=
        exists_mem_of_forall₂ hcompiled hentry
      obtain ⟨c, hc, hinside⟩ := mem_questions_iff.mp hinside
      obtain ⟨d, -, hd⟩ := exists_mem_of_mapM hcomponents hc
      exact hinner inner hinner? d c hd inside hinside

theorem forall_questions_of_compileComponent (depth : Nat) : ∀ {d : ComponentDefinition}
    {c : Component}, compileComponent context depth d = .ok c → ∀ q ∈ c.questions, P q.field := by
  induction depth with
  | zero =>
      intro d c h
      exact forall_questions_of_compileWith single choice (fun inner hinner =>
        absurd hinner (Option.not_mem_none inner)) h
  | succ depth ih =>
      intro d c h
      refine forall_questions_of_compileWith single choice ?_ h
      intro inner hinner d c hc
      cases hinner
      exact ih hc

/-- What holds of the fields that compile holds of every field of a group, however deep it is
revealed. -/
theorem forall_questions_of_compileGroup {definitions : List ComponentDefinition}
    {components : List Component} (h : compileGroup context definitions = .ok components) :
    ∀ q ∈ questions components, P q.field := by
  obtain ⟨compiled, hcompiled, h⟩ := Except.bind_eq_ok_iff.mp h
  obtain rfl := eq_of_asGroup h
  intro q hq
  obtain ⟨c, hc, hq⟩ := mem_questions_iff.mp hq
  obtain ⟨d, -, hd⟩ := exists_mem_of_mapM hcompiled hc
  exact forall_questions_of_compileComponent single choice context.lists.length hd q hq

end

/-- Built-in types alone compile to fields of built-in types, revealed fields included. -/
theorem isBuiltinField_of_compileGroup (hbuiltin : context.types.IsBuiltin)
    {definitions : List ComponentDefinition} {components : List Component}
    (h : compileGroup context definitions = .ok components) :
    ∀ q ∈ questions components, q.field.IsBuiltinField = true := by
  refine forall_questions_of_compileGroup (P := fun c => c.IsBuiltinField = true) ?_ ?_ h
  · intro tag kind d hkind hform
    have hplain := hbuiltin.kind_ne_plain hkind
    cases kind with
    | content variant => cases hform
    | plain => exact absurd rfl hplain
    | _ => rfl
  · exact fun _ _ => rfl

/-- The list that a field chooses from is one of those there are. -/
theorem listFrom_of_compileGroup {definitions : List ComponentDefinition}
    {components : List Component} (h : compileGroup context definitions = .ok components) :
    ∀ q ∈ questions components, q.field.ListFrom context.lists := by
  refine forall_questions_of_compileGroup (P := Component.ListFrom context.lists)
    (fun _ _ _ => True.intro) ?_ h
  intro variant d list reveals hlist _
  unfold CompileContext.listFor at hlist
  split at hlist
  · next found hfound =>
    cases hlist
    exact List.mem_reverse.mp (List.mem_of_find?_eq_some hfound)
  · cases hlist

/-- The fields of a group that compiles reveal what they do under the indices of items. -/
theorem revealsByIndex_of_compileGroup {definitions : List ComponentDefinition}
    {components : List Component} (h : compileGroup context definitions = .ok components) :
    ∀ q ∈ questions components, q.field.RevealsByIndex :=
  forall_questions_of_compileGroup (P := Component.RevealsByIndex)
    (fun _ _ _ => True.intro) (fun _ hindices => hindices) h

end

/-! ## Pages -/

namespace Page

/-- What finding a section gives: the declared section of the page's section name, if it has one. -/
theorem section_of_findSection {sections : List SectionDefinition} {d : PageDefinition}
    {found : Option SectionDefinition} (h : findSection sections d = .ok found) :
    found.map SectionDefinition.name = d.sectionName ∧ ∀ s ∈ found, s ∈ sections := by
  unfold findSection at h
  split at h
  · next hnone =>
    cases h
    exact ⟨hnone.symm, nofun⟩
  · next name hname =>
    split at h
    · next s hs =>
      cases h
      have hsame : s.name = name := by simpa using List.find?_some hs
      refine ⟨(congrArg some hsame).trans hname.symm, fun s' hs' => ?_⟩
      obtain rfl := Option.some.inj hs'
      exact List.mem_of_find?_eq_some hs
    · cases h

section

variable {page : Page} {definition : PageDefinition} {sections : List SectionDefinition}
  {context : CompileContext} {conditions : Registry} {options : Options}

/-- A page compiles if and only if its section, its components and its routes do. -/
theorem compile_eq_ok_iff :
    Page.compile definition sections context conditions options = .ok page ↔
      ∃ found components routes, findSection sections definition = .ok found ∧
        compileGroup context definition.components = .ok components ∧
        compileRoutes conditions definition.path definition.routes = .ok routes ∧
        ⟨definition.path, definition.title.getD "", found, components, routes, conditions,
          options⟩ = page := by
  constructor
  · intro h
    obtain ⟨found, hfound, h⟩ := Except.bind_eq_ok_iff.mp h
    obtain ⟨components, hcomponents, h⟩ := Except.bind_eq_ok_iff.mp h
    obtain ⟨routes, hroutes, h⟩ := Except.bind_eq_ok_iff.mp h
    exact ⟨found, components, routes, hfound, hcomponents, hroutes, Except.ok.inj h⟩
  · rintro ⟨found, components, routes, hfound, hcomponents, hroutes, rfl⟩
    exact Except.bind_eq_ok_iff.mpr ⟨found, hfound, Except.bind_eq_ok_iff.mpr
      ⟨components, hcomponents, Except.bind_eq_ok_iff.mpr ⟨routes, hroutes, rfl⟩⟩⟩

variable (h : Page.compile definition sections context conditions options = .ok page)
include h

theorem compileGroup_of_compile :
    compileGroup context definition.components = .ok page.components := by
  obtain ⟨_, _, _, -, hcomponents, -, rfl⟩ := compile_eq_ok_iff.mp h
  exact hcomponents

theorem section_of_compile {name : String} (hname : page.sectionName? = some name) :
    ∃ s ∈ sections, s.name = name := by
  obtain ⟨_, _, _, hfound, -, -, rfl⟩ := compile_eq_ok_iff.mp h
  obtain ⟨s, rfl, hs⟩ := Option.map_eq_some_iff.mp hname
  exact ⟨s, (section_of_findSection hfound).2 s rfl, hs⟩

end

end Page

namespace Model

/-- A questionnaire compiles if and only if its conditions and its pages do. -/
theorem compile_eq_ok_iff {form : FormDefinition} {options : Options} {types : TypeRegistry}
    {model : Model} :
    compile form options types = .ok model ↔
      ∃ conditions pages, Registry.compile form.withYesNo.conditions = .ok conditions ∧
        (form.withYesNo.pages.mapM fun d => Page.compile d form.withYesNo.sections
          ⟨form.withYesNo.lists, types, d.path⟩ conditions options) = .ok pages ∧
        ⟨form.withYesNo, conditions, pages, options,
          modelSchema form.withYesNo.sections pages⟩ = model := by
  constructor
  · intro h
    obtain ⟨conditions, hconditions, h⟩ := Except.bind_eq_ok_iff.mp h
    obtain ⟨pages, hpages, h⟩ := Except.bind_eq_ok_iff.mp h
    exact ⟨conditions, pages, hconditions, hpages, Except.ok.inj h⟩
  · rintro ⟨conditions, pages, hconditions, hpages, rfl⟩
    exact Except.bind_eq_ok_iff.mpr ⟨conditions, hconditions,
      Except.bind_eq_ok_iff.mpr ⟨pages, hpages, rfl⟩⟩

end Model

end Questionnaire
