import Questionnaire.Model.Basic
import Questionnaire.Proofs.Component.Compiled
import Questionnaire.Proofs.Definition.Structured

/-!
# Why compiling fails

Once a definition is structured, compiling it fails only for what the definition says: a type that
is not registered, a list or a condition that is not declared, a name used twice
(`DefinitionError.AboutContent`). It can be read, and the sections of its pages are declared
(`ofJson_of_structured`).
-/

namespace Questionnaire

/-! ## Steps that fail -/

theorem Except.bind_eq_error_iff {α β ε : Type} {x : Except ε α} {f : α → Except ε β} {e : ε} :
    x >>= f = .error e ↔ x = .error e ∨ ∃ a, x = .ok a ∧ f a = .error e := by
  cases x with
  | error e' =>
      refine ⟨fun h => .inl ?_, ?_⟩
      · cases h
        rfl
      · rintro (h | ⟨a, ha, -⟩)
        · cases h
          rfl
        · exact nomatch ha
  | ok a =>
      refine ⟨fun h => .inr ⟨a, rfl, h⟩, ?_⟩
      rintro (h | ⟨a', ha, h⟩)
      · exact nomatch h
      · cases ha
        exact h

/-- A traversal fails with the failure of one of its steps. -/
theorem exists_mem_of_mapM_error {α β ε : Type} {f : α → Except ε β} {l : List α} {e : ε}
    (h : l.mapM f = .error e) : ∃ a ∈ l, f a = .error e := by
  induction l with
  | nil => exact nomatch h
  | cons first rest ih =>
      rw [List.mapM_cons] at h
      rcases Except.bind_eq_error_iff.mp h with h | ⟨b, -, h⟩
      · exact ⟨first, List.mem_cons_self .., h⟩
      · rcases Except.bind_eq_error_iff.mp h with h | ⟨bs, -, h⟩
        · obtain ⟨a, ha, hstep⟩ := ih h
          exact ⟨a, List.mem_cons_of_mem _ ha, hstep⟩
        · exact nomatch h

/-! ## Errors about what a definition says -/

/-- The error is neither about how the definition is written nor about its sections. -/
def DefinitionError.AboutContent : DefinitionError → Prop
  | .invalidStructure _ | .notJson | .unreadable | .unknownSection .. => False
  | _ => True

theorem DefinitionError.AboutContent.ne {e : DefinitionError} (h : e.AboutContent) :
    e ≠ .unreadable ∧ e ≠ .notJson ∧ ∀ page name, e ≠ .unknownSection page name := by
  refine ⟨?_, ?_, fun page name => ?_⟩ <;> rintro rfl <;> exact h

theorem DefinitionError.aboutContent_ofParseError (source referrer : String) (e : ParseError) :
    (DefinitionError.ofParseError source referrer e).AboutContent := by
  cases e <;> trivial

section

variable {e : DefinitionError}

theorem Registry.aboutContent_of_parseAll {known : List String} {conditions : List Condition}
    {definitions : List ConditionDefinition} (h : parseAll known conditions definitions = .error e) :
    e.AboutContent := by
  induction definitions generalizing conditions with
  | nil => exact nomatch h
  | cons d rest ih =>
      rw [parseAll] at h
      split at h
      · cases h
        exact DefinitionError.aboutContent_ofParseError ..
      · exact ih h

theorem Registry.aboutContent_of_compile {definitions : List ConditionDefinition}
    (h : Registry.compile definitions = .error e) : e.AboutContent := by
  unfold Registry.compile compileVisiting at h
  split at h
  · next hparse =>
    cases h
    exact aboutContent_of_parseAll hparse
  · unfold ofConditions at h
    split at h
    · cases h
      trivial
    · cases h

variable {context : CompileContext}

theorem aboutContent_of_asGroup {components : List Component}
    (h : asGroup context components = .error e) : e.AboutContent := by
  unfold asGroup at h
  split at h
  · cases h
    trivial
  · exact nomatch h

theorem aboutContent_of_requireName {c : Component} (h : requireName context c = .error e) :
    e.AboutContent := by
  unfold requireName at h
  split at h
  · cases h
    trivial
  · exact nomatch h

theorem aboutContent_of_listFor {variant : ChoiceVariant} {d : ComponentDefinition}
    (h : context.listFor variant d = .error e) : e.AboutContent := by
  unfold CompileContext.listFor at h
  split at h
  · exact nomatch h
  · cases h
    trivial

section

variable {inner? : Option (ComponentDefinition → Except DefinitionError Component)}
  (hinner : ∀ inner ∈ inner?, ∀ d e, inner d = .error e → e.AboutContent)

include hinner

theorem aboutContent_of_compileReveals {list : ListDefinition}
    {revealing : List (Nat × Json × List ComponentDefinition)}
    (h : compileReveals context list inner? revealing = .error e) : e.AboutContent := by
  unfold compileReveals at h
  split at h
  · exact nomatch h
  · cases h
    trivial
  · next item rest inner =>
    obtain ⟨⟨i, value, definitions⟩, -, h⟩ := exists_mem_of_mapM_error h
    rcases Except.bind_eq_error_iff.mp h with h | ⟨components, -, h⟩
    · obtain ⟨d, -, h⟩ := exists_mem_of_mapM_error h
      exact hinner inner rfl d e h
    · rcases Except.bind_eq_error_iff.mp h with h | ⟨group, -, h⟩
      · exact aboutContent_of_asGroup h
      · exact nomatch h

theorem aboutContent_of_compileWith {d : ComponentDefinition}
    (h : compileWith context inner? d = .error e) : e.AboutContent := by
  unfold compileWith at h
  split at h
  · cases h
    trivial
  · exact aboutContent_of_requireName h
  · rcases Except.bind_eq_error_iff.mp h with h | ⟨list, -, h⟩
    · exact aboutContent_of_listFor h
    · rcases Except.bind_eq_error_iff.mp h with h | ⟨reveals, -, h⟩
      · exact aboutContent_of_compileReveals hinner h
      · exact aboutContent_of_requireName h

end

theorem aboutContent_of_compileComponent (depth : Nat) : ∀ d e,
    compileComponent context depth d = .error e → e.AboutContent := by
  induction depth with
  | zero =>
      intro d e h
      exact aboutContent_of_compileWith
        (fun inner hinner => absurd hinner (Option.not_mem_none inner)) h
  | succ depth ih =>
      intro d e h
      refine aboutContent_of_compileWith (fun inner hinner => ?_) h
      cases hinner
      exact ih

theorem aboutContent_of_compileGroup {definitions : List ComponentDefinition}
    (h : compileGroup context definitions = .error e) : e.AboutContent := by
  rcases Except.bind_eq_error_iff.mp h with h | ⟨components, -, h⟩
  · obtain ⟨d, -, h⟩ := exists_mem_of_mapM_error h
    exact aboutContent_of_compileComponent _ d e h
  · exact aboutContent_of_asGroup h

variable {conditions : Registry} {page : String}

theorem Registry.aboutContent_of_parse {source referrer : String}
    (h : conditions.parse source referrer = .error e) : e.AboutContent := by
  unfold Registry.parse at h
  split at h
  · cases h
    exact DefinitionError.aboutContent_ofParseError ..
  · exact nomatch h

theorem aboutContent_of_compileGuard {text : String}
    (h : compileGuard conditions page text = .error e) : e.AboutContent := by
  unfold compileGuard at h
  split at h
  · exact nomatch h
  · split at h
    · next hparse =>
      cases h
      exact Registry.aboutContent_of_parse hparse
    · exact nomatch h

theorem aboutContent_of_compileRoutes {routes : List RouteDefinition}
    (h : compileRoutes conditions page routes = .error e) : e.AboutContent := by
  obtain ⟨d, -, h⟩ := exists_mem_of_mapM_error h
  unfold compileRoute at h
  split at h
  · exact nomatch h
  · split at h
    · next hguard =>
      cases h
      exact aboutContent_of_compileGuard hguard
    · exact nomatch h

end

/-! ## Structured definitions -/

section

variable {sections : List SectionDefinition} {d : PageDefinition}

/-- A declared section is found. -/
theorem Page.exists_findSection (h : ∀ name, d.sectionName = some name →
      name ∈ sections.map (·.name)) :
    ∃ found, findSection sections d = .ok found ∧ found.map (·.name) = d.sectionName := by
  unfold findSection
  cases hname : d.sectionName with
  | none => exact ⟨none, rfl, rfl⟩
  | some name =>
      obtain ⟨s, hs, rfl⟩ := List.mem_map.mp (h name hname)
      cases hfind : sections.find? (·.name == s.name) with
      | none => exact absurd (List.find?_eq_none.mp hfind s hs) (by simp)
      | some found =>
          have hfound : found.name = s.name := by simpa using List.find?_some hfind
          exact ⟨some found, by simp only [hfind], congrArg some hfound⟩

theorem Page.aboutContent_of_compile {context : CompileContext} {conditions : Registry}
    {options : Options} {e : DefinitionError}
    (hdeclared : ∀ name, d.sectionName = some name → name ∈ sections.map (·.name))
    (h : Page.compile d sections context conditions options = .error e) : e.AboutContent := by
  rcases Except.bind_eq_error_iff.mp h with h | ⟨found, -, h⟩
  · obtain ⟨found, hfound, -⟩ := exists_findSection hdeclared
    exact nomatch hfound.symm.trans h
  · rcases Except.bind_eq_error_iff.mp h with h | ⟨components, -, h⟩
    · exact aboutContent_of_compileGroup h
    · rcases Except.bind_eq_error_iff.mp h with h | ⟨routes, -, h⟩
      · exact aboutContent_of_compileRoutes h
      · exact nomatch h

end

@[simp] theorem FormDefinition.pages_withYesNo (form : FormDefinition) :
    form.withYesNo.pages = form.pages := by
  unfold withYesNo
  split <;> rfl

@[simp] theorem FormDefinition.sections_withYesNo (form : FormDefinition) :
    form.withYesNo.sections = form.sections := by
  unfold withYesNo
  split <;> rfl

namespace Model

theorem aboutContent_of_compile {form : FormDefinition} {options : Options} {types : TypeRegistry}
    {e : DefinitionError} (hform : form.WellFormed) (h : compile form options types = .error e) :
    e.AboutContent := by
  rcases Except.bind_eq_error_iff.mp h with h | ⟨conditions, -, h⟩
  · exact Registry.aboutContent_of_compile h
  · rcases Except.bind_eq_error_iff.mp h with h | ⟨pages, -, h⟩
    · obtain ⟨d, hd, h⟩ := exists_mem_of_mapM_error h
      rw [form.pages_withYesNo] at hd
      rw [form.sections_withYesNo] at h
      exact Page.aboutContent_of_compile (hform.pages d hd).declared h
    · exact nomatch h

theorem ofJson_eq_compile {source : Json} {form : FormDefinition}
    (h : Structure.issues source = []) (hform : FormDefinition.ofJson? source = some form)
    (options : Options) (types : TypeRegistry) :
    ofJson source options types = compile form options types := by
  simp [ofJson, h, hform]

/-- A value without structural issues spells a definition whose pages have declared sections, and
compiling it does not fail for want of either. -/
theorem ofJson_of_structured {source : Json} (h : Structure.issues source = []) :
    ∃ form, FormDefinition.ofJson? source = some form ∧
      (∀ d ∈ form.pages, ∃ found, Page.findSection form.sections d = .ok found ∧
        found.map (·.name) = d.sectionName) ∧
      ∀ options types e, ofJson source options types = .error e →
        e ≠ .unreadable ∧ e ≠ .notJson ∧ ∀ page name, e ≠ .unknownSection page name := by
  obtain ⟨form, hread, hform⟩ := FormDefinition.exists_of_issues h
  refine ⟨form, hread, fun d hd => Page.exists_findSection (hform.pages d hd).declared, ?_⟩
  intro options types e herror
  rw [ofJson_eq_compile h hread] at herror
  exact (aboutContent_of_compile hform herror).ne

/-- A page in a declared section, on which an answer reveals a field of no registered type. -/
def signatureSource : Json :=
  .obj
    [("lists", .arr [.obj
        [("items", .arr [.obj
            [("conditional", .obj [("components", .arr [.obj
                [("name", .str "signature"), ("type", .str "SignatureField")]])]),
              ("text", .str "Yes"), ("value", .bool true)]]),
          ("name", .str "consent"), ("title", .str "Consent"), ("type", .str "boolean")]]),
      ("pages", .arr [.obj
        [("components", .arr [.obj
            [("name", .str "consent"), ("options", .obj [("list", .str "consent")]),
              ("type", .str "RadiosField")]]),
          ("path", .str "/consent"), ("section", .str "visit")]]),
      ("sections", .arr [.obj [("name", .str "visit"), ("title", .str "Visit")]])]

theorem ofJson_of_structured_signature :
    Structure.issues signatureSource = [] ∧
      (∃ form, FormDefinition.ofJson? signatureSource = some form ∧
        ∀ d ∈ form.pages, ∃ found, Page.findSection form.sections d = .ok found ∧
          found.map (·.name) = d.sectionName) ∧
      ∃ e, ofJson signatureSource {} .builtin = .error e ∧
        e = .unknownComponentType "/consent" "signature" "SignatureField" ∧
        e ≠ .unreadable ∧ e ≠ .notJson ∧ ∀ page name, e ≠ .unknownSection page name := by
  have hissues : Structure.issues signatureSource = [] := by decide +kernel
  have herror : ofJson signatureSource {} .builtin =
      .error (.unknownComponentType "/consent" "signature" "SignatureField") := by
    with_unfolding_all rfl
  obtain ⟨form, hread, hsections, hne⟩ := ofJson_of_structured hissues
  exact ⟨hissues, ⟨form, hread, hsections⟩, _, herror, rfl, hne _ _ _ herror⟩

end Model

end Questionnaire
