import Questionnaire.Proofs.Definition.Writing
import Questionnaire.Proofs.Model.Compiling

/-!
# Definitions that are saved and compiled again

A model keeps the definition it was compiled from, with the list of the answers yes and no. Written
as JSON and compiled again, the definition comes back as it was, provided that every page has a
title and a section: a page without one is written with null in its place, and null is refused
(`rebuilds_iff`).
-/

namespace Questionnaire

/-! ## The list of the answers yes and no -/

namespace FormDefinition

theorem wellFormed_yesNoList : yesNoList.WellFormed := by
  refine ⟨fun item hitem => ?_⟩
  rcases List.mem_cons.mp hitem with rfl | hitem
  · exact ⟨rfl, nofun⟩
  · obtain rfl := List.mem_singleton.mp hitem
    exact ⟨rfl, nofun⟩

theorem WellFormed.withYesNo {form : FormDefinition} (h : form.WellFormed) :
    form.withYesNo.WellFormed := by
  unfold FormDefinition.withYesNo
  split
  · exact h
  · next hfresh =>
    refine ⟨h.pages, ?_, h.sectionNames, ?_, h.pagePaths⟩
    · intro list hlist
      rcases List.mem_append.mp hlist with hlist | hlist
      · exact h.lists list hlist
      · exact List.mem_singleton.mp hlist ▸ wellFormed_yesNoList
    · have hname : yesNoListName ∉ form.lists.map (·.name) := by simpa using hfresh
      simpa [List.nodup_append] using ⟨h.listNames, fun list hlist heq => hname
        (List.mem_map.mpr ⟨list, hlist, heq⟩)⟩

/-- The list is added once. -/
theorem withYesNo_withYesNo (form : FormDefinition) : form.withYesNo.withYesNo = form.withYesNo := by
  have hadded : form.withYesNo.lists.any (·.name == yesNoListName) = true := by
    unfold withYesNo
    split
    · assumption
    · simp [yesNoList]
  rw [withYesNo, if_pos hadded]

end FormDefinition

/-! ## Compiling with other options -/

/-- Steps that succeed where others do, succeed all together where those do. -/
theorem exists_mapM_eq_ok {α β γ ε : Type} {f : α → Except ε β} {g : α → Except ε γ} {l : List α}
    {results : List β} (hstep : ∀ a b, f a = .ok b → ∃ c, g a = .ok c)
    (h : l.mapM f = .ok results) : ∃ others, l.mapM g = .ok others := by
  suffices hothers : ∃ others, List.Forall₂ (fun a c => g a = .ok c) l others by
    simpa only [Except.mapM_eq_ok_iff] using hothers
  induction Except.mapM_eq_ok_iff.mp h with
  | nil => exact ⟨[], .nil⟩
  | cons hfirst hrest ih =>
      obtain ⟨c, hc⟩ := hstep _ _ hfirst
      obtain ⟨cs, hcs⟩ := ih (Except.mapM_eq_ok_iff.mpr hrest)
      exact ⟨c :: cs, .cons hc hcs⟩

theorem Page.exists_compile_options {d : PageDefinition} {sections : List SectionDefinition}
    {context : CompileContext} {conditions : Registry} {options : Options} {page : Page}
    (h : Page.compile d sections context conditions options = .ok page) (options' : Options) :
    ∃ other, Page.compile d sections context conditions options' = .ok other := by
  obtain ⟨found, components, routes, hfound, hcomponents, hroutes, -⟩ := compile_eq_ok_iff.mp h
  exact ⟨_, compile_eq_ok_iff.mpr ⟨found, components, routes, hfound, hcomponents, hroutes, rfl⟩⟩

namespace Model

section

variable {form : FormDefinition} {options : Options} {types : TypeRegistry} {model : Model}
  (h : compile form options types = .ok model)

include h

theorem definition_of_compile : model.definition = form.withYesNo := by
  obtain ⟨_, _, -, -, rfl⟩ := compile_eq_ok_iff.mp h
  rfl

/-- Whether a definition compiles does not depend on the options. -/
theorem exists_compile_options (options' : Options) :
    ∃ other, compile form options' types = .ok other := by
  obtain ⟨conditions, pages, hconditions, hpages, -⟩ := compile_eq_ok_iff.mp h
  obtain ⟨others, hothers⟩ := exists_mapM_eq_ok
    (fun _ _ hpage => Page.exists_compile_options hpage options') hpages
  exact ⟨_, compile_eq_ok_iff.mpr ⟨conditions, others, hconditions, hothers, rfl⟩⟩

end

theorem compile_withYesNo (form : FormDefinition) (options : Options) (types : TypeRegistry) :
    compile form.withYesNo options types = compile form options types := by
  simp only [compile, form.withYesNo_withYesNo]

section

variable {source : Json} {options : Options} {types : TypeRegistry} {model : Model}
  (h : ofJson source options types = .ok model)

include h

theorem issues_of_ofJson : Structure.issues source = [] := by
  unfold ofJson at h
  split at h
  · assumption
  · exact nomatch h

/-- What is compiled is a well-formed definition. -/
theorem exists_of_ofJson : ∃ form, form.WellFormed ∧ compile form options types = .ok model := by
  have hissues := issues_of_ofJson h
  obtain ⟨form, hread, hform⟩ := FormDefinition.exists_of_issues hissues
  exact ⟨form, hform, (ofJson_eq_compile hissues hread options types).symm.trans h⟩

/-- The definition of a model, saved and compiled again with the same types, gives a model of the
same definition when every page has a title and a section, and is refused otherwise. -/
theorem rebuilds_iff (options' : Options) :
    (∃ rebuilt, ofJson model.definition.toJson options' types = .ok rebuilt ∧
        rebuilt.definition = model.definition) ↔
      ∀ page ∈ model.definition.pages,
        page.title.isSome = true ∧ page.sectionName.isSome = true := by
  obtain ⟨form, hform, hcompile⟩ := exists_of_ofJson h
  rw [definition_of_compile hcompile, ← FormDefinition.issues_toJson_iff hform.withYesNo]
  constructor
  · rintro ⟨rebuilt, hrebuilt, -⟩
    exact issues_of_ofJson hrebuilt
  · intro hissues
    have hread := FormDefinition.ofJson?_toJson hform.withYesNo
    obtain ⟨rebuilt, hrebuilt⟩ := exists_compile_options hcompile options'
    refine ⟨rebuilt, ?_, definition_of_compile hrebuilt⟩
    rw [ofJson_eq_compile hissues hread, compile_withYesNo, hrebuilt]

end

/-- A questionnaire of one page, which has the given members besides its path. -/
def startSource (members : Fields) : Json :=
  .obj
    [("pages", .arr [.obj (Fields.insert "path" (.str "/start") members)]),
      ("sections", .arr [.obj [("name", .str "visit"), ("title", .str "Visit")]])]

/-- The page with a title and a section comes back, and the page with neither does not. -/
theorem rebuilds_iff_start :
    (∃ model rebuilt,
      ofJson (startSource [("section", .str "visit"), ("title", .str "Start")]) {} .builtin =
          .ok model ∧
        ofJson model.definition.toJson {} .builtin = .ok rebuilt ∧
        rebuilt.definition = model.definition) ∧
      ∃ model, ofJson (startSource []) {} .builtin = .ok model ∧
        ¬ ∃ rebuilt, ofJson model.definition.toJson {} .builtin = .ok rebuilt ∧
          rebuilt.definition = model.definition := by
  have htitled : ∃ model,
      ofJson (startSource [("section", .str "visit"), ("title", .str "Start")]) {} .builtin =
        .ok model ∧ ∀ page ∈ model.definition.pages,
          page.title.isSome = true ∧ page.sectionName.isSome = true := by
    exact ⟨_, by with_unfolding_all rfl, by with_unfolding_all decide⟩
  have hbare : ∃ model, ofJson (startSource []) {} .builtin = .ok model ∧
      ¬ ∀ page ∈ model.definition.pages,
        page.title.isSome = true ∧ page.sectionName.isSome = true := by
    exact ⟨_, by with_unfolding_all rfl, by with_unfolding_all decide⟩
  obtain ⟨model, hmodel, hpages⟩ := htitled
  obtain ⟨bare, hcompiled, hlacking⟩ := hbare
  obtain ⟨rebuilt, hrebuilt, hsame⟩ := (rebuilds_iff hmodel {}).mpr hpages
  exact ⟨⟨model, rebuilt, hmodel, hrebuilt, hsame⟩, bare, hcompiled,
    fun h => hlacking ((rebuilds_iff hcompiled {}).mp h)⟩

end Model

end Questionnaire
