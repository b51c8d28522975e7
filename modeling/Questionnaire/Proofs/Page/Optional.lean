import Questionnaire.Proofs.Page.Hidden

/-!
# Optional fields

Every input of an optional field may be left empty, also while the field is revealed: its own rule
neither needs a value nor refuses the empty one (`mayBeBlank_own_form`). Leaving the input out
altogether is another matter. While the item that reveals a field is selected, its inputs must be
there, those of an optional field included, so one that a browser leaves out when nothing is chosen
is refused (`exists_optional_refused`).
-/

namespace Questionnaire

/-! ## Rules that take a blank -/

/-- The rule takes a missing input as well as an empty one. -/
def Rule.MayBeBlank (rule : Rule) : Prop :=
  rule.attributes.required = false ∧ rule.attributes.allows (.str "") = true

/-- The rule of a field without the values that its list leaves open. -/
theorem Rule.MayBeBlank.among {rule : Rule} (h : rule.MayBeBlank) (values : List Json) :
    (rule.among values).MayBeBlank := by
  have hattributes : (rule.among values).attributes =
      { rule.attributes with valid := some values } := Rule.attributes_mapAttributes ..
  rw [MayBeBlank, hattributes]
  exact h

theorem mayBeBlank_allowing {rule : Rule} (hrequired : rule.attributes.required = false) :
    (rule.allowing (.str "")).MayBeBlank :=
  ⟨(Rule.required_allowing ..).trans hrequired, Rule.allows_allowing ..⟩

section

variable {d : ComponentDefinition} (hoptional : d.isOptional = true)

include hoptional

theorem mayBeBlank_presence {rule : Rule} (hrequired : rule.attributes.required = false) :
    (presence d (.str "") rule).MayBeBlank := by
  rw [presence, if_pos hoptional]
  exact mayBeBlank_allowing hrequired

theorem mayBeBlank_formRule_base {base : Rule} (hbase : base.IsBase) :
    (formRule d base).MayBeBlank := by
  obtain ⟨kind, rfl, -⟩ := hbase
  obtain ⟨kind', a', hdescribed, -, hkeeps⟩ := described_leaf d kind {}
  refine mayBeBlank_presence hoptional ?_
  rw [hdescribed]
  exact hkeeps.required_eq

theorem mayBeBlank_formRule_oneOrMore (list : ListDefinition) :
    (formRule d (oneOrMore list)).MayBeBlank := by
  obtain ⟨a', hdescribed, hkeeps⟩ := described_alternatives d
    [list.type.base.among list.values, .arrayOf (list.type.base.among list.values)] {}
  refine mayBeBlank_presence hoptional ?_
  rw [oneOrMore, Rule.oneOf, hdescribed]
  exact hkeeps.required_eq

/-- An optional address needs none of its parts, the core ones included. -/
theorem AddressPart.mayBeBlank_rule (part : AddressPart) : (part.rule d).MayBeBlank := by
  unfold AddressPart.rule
  dsimp only
  rw [if_neg (by simp [hoptional])]
  refine mayBeBlank_allowing ?_
  split <;> rfl

end

/-- An optional field's own rule lets each of its inputs be missing or empty. -/
theorem mayBeBlank_own_form {c : Component} (hfield : c.IsBuiltinField = true)
    (hoptional : c.definition.isOptional = true) {entry : String × Rule}
    (hentry : entry ∈ Side.form.own c) : entry.2.MayBeBlank := by
  refine own_form_of_kinds hfield ?_ ?_ ?_ ?_ ?_ hentry
  · exact mayBeBlank_formRule_base hoptional
  · exact fun hbase values => (mayBeBlank_formRule_base hoptional hbase).among values
  · exact mayBeBlank_formRule_oneOrMore hoptional
  · exact fun part => mayBeBlank_presence hoptional rfl
  · exact fun part => part.mayBeBlank_rule hoptional

/-! ## Pages -/

namespace Page

section

variable {page : Page} {definition : PageDefinition} {sections : List SectionDefinition}
  {context : CompileContext} {conditions : Registry} {options : Options}
  (hcompile : Page.compile definition sections context conditions options = .ok page)
  (hbuiltin : context.types.IsBuiltin) {data : FormData} {q : Question} {key : String}
  (hasker : asker? page.components key = some q)

include hcompile hbuiltin hasker

/-- The input of a question whose rule counts is refused, if left blank, when the question is asked
and wants more. -/
theorem refusesAt_asker_iff (hblank : data.get? key = none ∨ data.get? key = some (.str "")) :
    page.RefusesAt data key ↔ q.IsAsked data ∧ q.WantsMore key data := by
  obtain ⟨rule, hrule⟩ := exists_own_asker hasker
  have hname : key ∈ Side.form.names q := List.mem_map_of_mem hrule
  rw [refusesAt_blank_iff hcompile hbuiltin ⟨q, mem_asker? hasker, hname⟩ hblank, hasker]
  simp

/-- An optional field that is left empty is not refused, whichever items are selected. One that is
missing is not refused either while the item that reveals it is not selected; once it is revealed it
must be there. -/
theorem optional_blank_accepted (hoptional : q.isOptional = true) :
    (data.get? key = some (.str "") → ¬ page.RefusesAt data key) ∧
      (data.get? key = none →
        ((∀ reveal, q.behind.head? = some reveal → reveal.isSelected data = false) →
          ¬ page.RefusesAt data key) ∧
        (q.behind ≠ [] → (∀ reveal ∈ q.behind, reveal.isSelected data = true) →
          page.RefusesAt data key)) := by
  obtain ⟨rule, hrule⟩ := exists_own_asker hasker
  have hfield := isBuiltinField_of_compileGroup hbuiltin (compileGroup_of_compile hcompile) q
    (mem_asker? hasker)
  obtain ⟨hrequired, hallows⟩ := mayBeBlank_own_form hfield hoptional hrule
  refine ⟨fun hempty => ?_, fun hnone => ⟨fun hhidden => ?_, fun hbehind hshown => ?_⟩⟩
  · rw [refusesAt_asker_iff hcompile hbuiltin hasker (.inr hempty), wantsMore_iff hrule, hempty]
    rintro ⟨-, hrefuses⟩
    exact Bool.false_ne_true (hrefuses.symm.trans hallows)
  · rw [refusesAt_asker_iff hcompile hbuiltin hasker (.inl hnone), wantsMore_iff hrule, hnone]
    rintro ⟨hasked, hneeds⟩
    cases hreveal : q.behind with
    | nil => exact Bool.false_ne_true (hrequired.symm.trans (hneeds hreveal))
    | cons inner outer =>
        have hhead : q.behind.head? = some inner := by rw [hreveal]; rfl
        exact Bool.false_ne_true ((hhidden inner hhead).symm.trans (hasked inner hhead))
  · rw [refusesAt_asker_iff hcompile hbuiltin hasker (.inl hnone), wantsMore_iff hrule, hnone]
    refine ⟨fun reveal hhead => hshown reveal ?_, fun hnil => absurd hnil hbehind⟩
    exact List.mem_of_head? hhead

end

end Page

/-! ## Where to send an answer -/

/-- A note to send along. -/
def noteField (required : Bool) : ComponentDefinition :=
  { type := "TextField", name := some "note", title := some "Note",
    options := { required := some required } }

/-- The topics to write about, which may be left out. -/
def topicsField : ComponentDefinition :=
  { type := "CheckboxesField", name := some "topics", title := some "Topics",
    options := { list := some "topics", required := some false } }

/-- How to answer. -/
def contactField : ComponentDefinition :=
  { type := "RadiosField", name := some "contact", title := some "Contact",
    options := { list := some "contact" } }

/-- An email may have topics and a note, a letter must have a note. -/
def contactList : ListDefinition :=
  { name := "contact", title := "Contact", type := .string,
    items := [{ text := "Email", value := .str "email",
                revealed := some [topicsField, noteField false] },
      { text := "Letter", value := .str "letter", revealed := some [noteField true] }] }

/-- What an email can be about. -/
def topicsList : ListDefinition :=
  { name := "topics", title := "Topics", type := .string,
    items := [{ text := "News", value := .str "news" }] }

/-- The page that asks for the way to answer. -/
def contactPage : Page :=
  ⟨"/contact", "", none,
    [.choice .radios contactField contactList
      [(0, .str "email",
          [.choice .checkboxes topicsField topicsList [],
            .single (.text .line) (noteField false)]),
        (1, .str "letter", [.single (.text .line) (noteField true)])]],
    [], ⟨[], []⟩, {}⟩

/-- The page as it is defined. -/
def contactDefinition : PageDefinition :=
  { path := "/contact", components := [contactField] }

theorem compile_contact :
    Page.compile contactDefinition [] ⟨[contactList, topicsList], .builtin, "/contact"⟩ ⟨[], []⟩ {} =
      .ok contactPage := rfl

/-- The question which topics. -/
def topicsQuestion : Question :=
  ⟨.choice .checkboxes topicsField topicsList [], [⟨"contact", .string, .str "email"⟩]⟩

/-- Topics left empty, left out of a letter, and left out of an email. -/
theorem Page.optional_blank_accepted_topics :
    ¬ contactPage.RefusesAt [("contact", .str "email"), ("topics", .str "")] "topics" ∧
      ¬ contactPage.RefusesAt [("contact", .str "letter")] "topics" ∧
      contactPage.RefusesAt [("contact", .str "email")] "topics" := by
  have hasker : asker? contactPage.components "topics" = some topicsQuestion := rfl
  have haccepted := fun data : FormData =>
    @optional_blank_accepted _ _ _ _ _ _ compile_contact TypeRegistry.isBuiltin_builtin data _ _
      hasker rfl
  refine ⟨(haccepted _).1 (by decide +kernel), ((haccepted _).2 (by decide +kernel)).1 ?_,
    ((haccepted _).2 (by decide +kernel)).2 nofun ?_⟩
  · rintro _ ⟨⟩
    decide +kernel
  · intro reveal hreveal
    obtain rfl := List.mem_singleton.mp hreveal
    decide +kernel

/-- Whether a page of built-in fields refuses the one input of an optional field in data that has
the given value there, or nothing. -/
def RefusesOptional (definition : PageDefinition) (lists : List ListDefinition) (data : FormData)
    (key : String) (given : Option Json) : Prop :=
  ∃ page, Page.compile definition [] ⟨lists, .builtin, definition.path⟩ ⟨[], []⟩ {} = .ok page ∧
    (∃ q ∈ questions page.components, q.isOptional = true ∧ Side.form.names q = [key]) ∧
    data.get? key = given ∧ page.RefusesAt data key

/-- Optional fields that are refused though their inputs are left blank: one that is revealed, for
not being there, and one whose name a later field has too, for being empty. -/
theorem exists_optional_refused :
    RefusesOptional contactDefinition [contactList, topicsList] [("contact", .str "email")]
        "topics" none ∧
      RefusesOptional contactDefinition [contactList, topicsList]
        [("contact", .str "letter"), ("note", .str "")] "note" (some (.str "")) := by
  refine ⟨⟨contactPage, compile_contact, ⟨topicsQuestion, .tail _ (.head _), rfl, rfl⟩, rfl, ?_⟩,
    ⟨contactPage, compile_contact,
      ⟨⟨.single (.text .line) (noteField false), [⟨"contact", .string, .str "email"⟩]⟩,
        .tail _ (.tail _ (.head _)), rfl, rfl⟩, rfl, ?_⟩⟩
  · exact ⟨⟨contactPage.options.errorSummaryTitle, [⟨["topics"], "Topics", .missing⟩]⟩,
      by decide +kernel, _, .head _, rfl⟩
  · exact ⟨⟨contactPage.options.errorSummaryTitle, [⟨["note"], "Note", .emptyText⟩]⟩,
      by decide +kernel, _, .head _, rfl⟩

end Questionnaire
