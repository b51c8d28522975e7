import Questionnaire.Proofs.Component.Compiled
import Questionnaire.Proofs.Component.Inputs
import Questionnaire.Proofs.Page.Answers

/-!
# Fields that are hidden and blank

A field behind reveals is hidden as soon as one of the items is not selected. Its rule asks for no
more than whether the item that reveals it directly is: of the reveals in front of a rule, the
innermost decides. So a field that is left blank is refused, hidden or not, when the question whose
rule counts for its key is asked and wants an answer (`hidden_blank_refused_iff`); a hidden field is
asked when an item further out is not selected and a chooser that is hidden itself still has the
item that reveals the field directly.
-/

namespace Questionnaire

/-! ## The question whose rule counts -/

/-- The question whose rule counts for a key of submitted data, which is the last to have the key. -/
def asker? (components : List Component) (key : String) : Option Question :=
  (questions components).reverse.find? fun q => (Side.form.names q).contains key

/-- The question is asked: it stands on the page itself, or the item that reveals it directly is
selected. -/
def Question.IsAsked (q : Question) (data : FormData) : Prop :=
  ∀ reveal, q.behind.head? = some reveal → reveal.isSelected data = true

/-- The field's own rule wants more than is there under a key. Once revealed, a field must be
there. -/
def Question.WantsMore (q : Question) (key : String) (data : FormData) : Prop :=
  ∃ rule, (key, rule) ∈ Side.form.own q.field ∧
    match data.get? key with
    | none => q.behind = [] → rule.attributes.required = true
    | some value => rule.attributes.allows value = false

theorem mem_asker? {components : List Component} {key : String} {q : Question}
    (h : asker? components key = some q) : q ∈ questions components :=
  List.mem_reverse.mp (List.mem_of_find?_eq_some h)

/-- The question whose rule counts for a key has a rule for it. -/
theorem exists_own_asker {components : List Component} {key : String} {q : Question}
    (h : asker? components key = some q) : ∃ rule, (key, rule) ∈ Side.form.own q.field := by
  have hname : (Side.form.names q).contains key = true :=
    List.find?_some (p := fun q => (Side.form.names q).contains key) h
  obtain ⟨⟨k, rule⟩, hrule, rfl⟩ := List.mem_map.mp (List.contains_iff_mem.mp hname)
  exact ⟨rule, hrule⟩

/-- The rule of a key is that of the question that asks for it, behind its reveals. -/
theorem get?_groupKeys_asker (components : List Component) (key : String) :
    (Side.form.groupKeys components).get? key =
      (asker? components key).bind fun q =>
        ((Side.form.own q.field).get? key).map (Side.form.behind q.behind) := by
  rw [Side.get?_groupKeys, Side.last?_flatMap_entries, asker?]

/-! ## Blank inputs -/

namespace Rule.IsField

variable {rule : Rule} (h : rule.IsField) (name : String) (siblings : Option Fields)

include h

/-- While the item that reveals it is not selected, a blank field passes. -/
theorem check_optional_blank {value : Option Json} (hblank : value = none ∨ value = some (.str "")) :
    ((rule.optional.allowing (.str "")).check {} name siblings value).failures = [] := by
  rcases hblank with rfl | rfl
  · rw [← Decidable.not_not (p := _ = []), ← ne_eq, (h.optional.allowing _).check_none_iff,
      required_allowing]
    simp [Rule.optional]
  · rw [(h.optional.allowing _).check_allowed {} name siblings (allows_allowing ..)]
    rfl

end Rule.IsField

theorem wantsMore_iff {q : Question} {key : String} {rule : Rule}
    (hrule : (key, rule) ∈ Side.form.own q.field) {data : FormData} :
    q.WantsMore key data ↔
      match data.get? key with
      | none => q.behind = [] → rule.attributes.required = true
      | some value => rule.attributes.allows value = false := by
  refine ⟨fun ⟨other, hother, hwants⟩ => ?_, fun hwants => ⟨rule, hrule, hwants⟩⟩
  have hnodup := Side.form.nodup_own q.field
  obtain rfl := Option.some.inj
    ((Keys.get?_of_mem hnodup hother).symm.trans (Keys.get?_of_mem hnodup hrule))
  exact hwants

/-- A key that is left blank is refused when its question is asked and wants more. -/
theorem check_blank_iff {q : Question} (hfield : q.field.IsBuiltinField = true) {key : String}
    {rule : Rule} (hrule : (key, rule) ∈ Side.form.own q.field) {data : FormData}
    (hblank : data.get? key = none ∨ data.get? key = some (.str "")) :
    ((Side.form.behind q.behind rule).check {} key (some data) (data.get? key)).failures ≠ [] ↔
      q.IsAsked data ∧ q.WantsMore key data := by
  have hform : rule.IsField := isField_own_form hfield hrule
  rw [wantsMore_iff hrule]
  unfold Question.IsAsked
  cases hbehind : q.behind with
  | nil =>
      show (rule.check {} key (some data) (data.get? key)).failures ≠ [] ↔ _
      rcases hblank with hnone | hempty
      · simp [hnone, hform.check_none_iff]
      · simp [hempty, hform.check_empty_iff]
  | cons reveal outer =>
      rw [check_behind]
      split
      · next hselected =>
        have hattributes : rule.required.attributes = { rule.attributes with required := true } :=
          Rule.attributes_mapAttributes ..
        rcases hblank with hnone | hempty
        · rw [hnone, hform.required.check_none_iff, hattributes]
          simp [hselected]
        · rw [hempty, hform.required.check_empty_iff, hattributes]
          simp [hselected, Attributes.allows]
      · next hselected =>
        rw [show Side.form.blank = .str "" from rfl, hform.check_optional_blank _ _ hblank]
        simp [hselected]

namespace Page

/-- Submitted data is refused with a failure at a key. -/
def RefusesAt (page : Page) (data : FormData) (key : String) : Prop :=
  ∃ summary, page.validateForm data = .error summary ∧
    ∃ failure ∈ summary.failures, failure.path.head? = some key

theorem refusesAt_iff {page : Page} {data : FormData} {key : String} {rule : Rule}
    (hrule : (Side.form.groupKeys page.components).get? key = some rule) :
    page.RefusesAt data key ↔ (rule.check {} key (some data) (data.get? key)).failures ≠ [] := by
  have hnodup := Side.form.nodup_groupKeys page.components
  have hschema : page.formSchema = (Rule.ofKeys (Side.form.groupKeys page.components)).required := by
    rw [Side.groupKeys_form]
    rfl
  generalize Side.form.groupKeys page.components = keys at hrule hnodup hschema
  -- A member without a rule fails at its own key, and this key has a rule.
  have hunknown : ∀ failure ∈ (Rule.checkUnknown false keys data).2,
      failure.path.head? ≠ some key := by
    intro failure hmem hhead
    have hhas := Rule.has_of_mem_checkUnknown hmem hhead
    rw [← Keys.isSome_get?, hrule] at hhas
    exact nomatch hhas
  unfold RefusesAt
  simp only [validateForm, validate_eq_error_iff, hschema, Rule.validate_ofKeys_eq_error_iff]
  constructor
  · rintro ⟨summary, ⟨-, -, hfailures⟩, failure, hmem, hhead⟩
    rw [hfailures, List.mem_append] at hmem
    obtain ⟨other, hother, hfails⟩ := Rule.exists_failure_checkKeys_iff.mp
      ⟨failure, hmem.resolve_right fun hmem => hunknown failure hmem hhead, hhead⟩
    obtain rfl := Option.some.inj ((Keys.get?_of_mem hnodup hother).symm.trans hrule)
    exact hfails
  · intro hfails
    obtain ⟨failure, hmem, hhead⟩ :=
      Rule.exists_failure_checkKeys_iff.mpr ⟨rule, Keys.mem_of_get? hrule, hfails⟩
    have hmem := List.mem_append_left (Rule.checkUnknown false keys data).2 hmem
    exact ⟨⟨page.options.errorSummaryTitle, _⟩, ⟨rfl, List.ne_nil_of_mem hmem, rfl⟩, failure, hmem,
      hhead⟩

section

variable {page : Page} {definition : PageDefinition} {sections : List SectionDefinition}
  {context : CompileContext} {conditions : Registry} {options : Options}
  (hcompile : Page.compile definition sections context conditions options = .ok page)
  (hbuiltin : context.types.IsBuiltin)

include hcompile hbuiltin

/-- A key that is left blank is refused when the question whose rule counts for it is asked and
wants more. -/
theorem refusesAt_blank_iff {data : FormData} {key : String}
    (hkey : ∃ q ∈ questions page.components, key ∈ Side.form.names q)
    (hblank : data.get? key = none ∨ data.get? key = some (.str "")) :
    page.RefusesAt data key ↔
      ∃ asker, asker? page.components key = some asker ∧ asker.IsAsked data ∧
        asker.WantsMore key data := by
  obtain ⟨asker, hasker⟩ : ∃ asker, asker? page.components key = some asker := by
    obtain ⟨q, hq, hname⟩ := hkey
    rw [← Option.isSome_iff_exists, asker?, List.find?_isSome]
    exact ⟨q, List.mem_reverse.mpr hq, List.contains_iff_mem.mpr hname⟩
  obtain ⟨rule, hrule⟩ := exists_own_asker hasker
  have hfield := isBuiltinField_of_compileGroup hbuiltin (compileGroup_of_compile hcompile) asker
    (mem_asker? hasker)
  have hget : (Side.form.groupKeys page.components).get? key =
      some (Side.form.behind asker.behind rule) := by
    rw [get?_groupKeys_asker, hasker, Option.bind_some,
      Keys.get?_of_mem (Side.form.nodup_own asker.field) hrule, Option.map_some]
  rw [refusesAt_iff hget, check_blank_iff hfield hrule hblank]
  simp [hasker]

/-- A hidden field that is left blank is refused as any other blank is. It is asked only where the
item that reveals it directly is selected although one further out is not. -/
theorem hidden_blank_refused_iff {data : FormData} {q : Question}
    (hq : q ∈ questions page.components) {hidden : Reveal} (hmem : hidden ∈ q.behind)
    (hhidden : hidden.isSelected data = false) {key : String} (hkey : key ∈ Side.form.names q)
    (hblank : data.get? key = none ∨ data.get? key = some (.str "")) :
    (page.RefusesAt data key ↔
      ∃ asker, asker? page.components key = some asker ∧ asker.IsAsked data ∧
        asker.WantsMore key data) ∧
      (q.IsAsked data ↔ ∃ inner outer, q.behind = inner :: outer ∧
        inner.isSelected data = true ∧ hidden ∈ outer) := by
  refine ⟨refusesAt_blank_iff hcompile hbuiltin ⟨q, hq, hkey⟩ hblank, ?_⟩
  unfold Question.IsAsked
  cases hbehind : q.behind with
  | nil =>
      rw [hbehind] at hmem
      exact nomatch hmem
  | cons inner outer =>
      rw [hbehind] at hmem
      constructor
      · intro hasked
        have hinner := hasked inner rfl
        refine ⟨inner, outer, rfl, hinner, (List.mem_cons.mp hmem).resolve_left ?_⟩
        rintro rfl
        exact Bool.false_ne_true (hhidden.symm.trans hinner)
      · rintro ⟨_, _, ⟨rfl, rfl⟩, hinner, -⟩ reveal hreveal
        obtain rfl := Option.some.inj hreveal
        exact hinner

end

end Page

/-! ## A visit by someone who has to be let in -/

/-- A field of a visit that chooses from the list of its own name. -/
def visitChoice (name title : String) : ComponentDefinition :=
  { type := "RadiosField", name := some name, title := some title, options := { list := some name } }

/-- Who holds the key. -/
def holderField : ComponentDefinition :=
  { type := "TextField", name := some "holder", title := some "Key holder" }

/-- Whether there is a repair, and then how to get in. -/
def repairList : ListDefinition :=
  { name := "kind", title := "Kind", type := .string,
    items := [{ text := "Repair", value := .str "repair",
                revealed := some [visitChoice "access" "Access"] },
      { text := "Delivery", value := .str "delivery" }] }

/-- How to get in, and with a key, who holds it. -/
def accessList : ListDefinition :=
  { name := "access", title := "Access", type := .string,
    items := [{ text := "Key", value := .str "key", revealed := some [holderField] },
      { text := "Someone is in", value := .str "open" }] }

/-- The question who holds the key. -/
def holderQuestion : Question :=
  ⟨.single (.text .line) holderField,
    [⟨"access", .string, .str "key"⟩, ⟨"kind", .string, .str "repair"⟩]⟩

/-- The page of such a visit. -/
def repairPage : Page :=
  ⟨"/visit", "", none,
    [.choice .radios (visitChoice "kind" "Kind") repairList
      [(0, .str "repair", [.choice .radios (visitChoice "access" "Access") accessList
        [(0, .str "key", [.single (.text .line) holderField])]])]],
    [], ⟨[], []⟩, {}⟩

theorem compile_repair :
    Page.compile { path := "/visit", components := [visitChoice "kind" "Kind"] } []
      ⟨[repairList, accessList], .builtin, "/visit"⟩ ⟨[], []⟩ {} = .ok repairPage := rfl

/-- A repair with a key, changed to a delivery. -/
def deliveryData : FormData :=
  [("access", .str "key"), ("holder", .str ""), ("kind", .str "delivery")]

/-- The key holder is hidden and left blank, and refused for the stale answer how to get in. -/
theorem Page.hidden_blank_refused_delivery :
    (∃ hidden ∈ holderQuestion.behind, hidden.isSelected deliveryData = false) ∧
      holderQuestion ∈ questions repairPage.components ∧
      deliveryData.get? "holder" = some (.str "") ∧
      repairPage.RefusesAt deliveryData "holder" := by
  have hmem : holderQuestion ∈ questions repairPage.components := .tail _ (.tail _ (.head _))
  have hblank : deliveryData.get? "holder" = some (.str "") := by decide +kernel
  have hhidden : Reveal.isSelected ⟨"kind", .string, .str "repair"⟩ deliveryData = false := by
    decide +kernel
  have houter : (⟨"kind", .string, .str "repair"⟩ : Reveal) ∈ holderQuestion.behind :=
    .tail _ (.head _)
  have hkey : "holder" ∈ Side.form.names holderQuestion := .head _
  obtain ⟨hrefused, hasked⟩ := hidden_blank_refused_iff compile_repair
    TypeRegistry.isBuiltin_builtin hmem houter hhidden hkey (.inr hblank)
  refine ⟨⟨_, houter, hhidden⟩, hmem, hblank, hrefused.mpr ⟨holderQuestion, rfl, ?_, ?_⟩⟩
  · exact hasked.mpr ⟨_, _, rfl, by decide +kernel, .head _⟩
  · refine ⟨formRule holderField TextVariant.line.base, .head _, ?_⟩
    rw [hblank]
    show (formRule holderField TextVariant.line.base).attributes.allows (.str "") = false
    decide +kernel

end Questionnaire
