import Questionnaire.Component.Compile
import Questionnaire.Component.Conversion

/-!
# The questions of a page

The fields of a group of components in one list, each with the reveals that lead to it
(`questions`). What a tree of components asks for, stores and submits is stated field by field over
this list. A field behind a reveal has its chooser in the list, behind the outer reveals
(`exists_chooser`), and a chooser has in the list whatever its items reveal (`mem_questions_of_reveals`).
-/

namespace Questionnaire

/-- A way in which a field comes to be revealed: an item of the list of another field. -/
structure Reveal where
  /-- The name of the field that chooses. -/
  chooser : String
  type : ListType
  /-- The value of the item. -/
  item : Json
deriving DecidableEq

/-- A field, and the reveals that lead to it, the innermost first. -/
structure Question where
  field : Component
  behind : List Reveal

namespace Question

/-- The name of the answer. -/
def name (q : Question) : String := q.field.name

/-- Whether the answer may be left out once the field is shown. -/
def isOptional (q : Question) : Bool := q.field.definition.isOptional

/-- The question as seen from one reveal further out. -/
def within (reveal : Reveal) (q : Question) : Question :=
  { q with behind := q.behind ++ [reveal] }

@[simp] theorem field_within (reveal : Reveal) (q : Question) :
    (q.within reveal).field = q.field := rfl

@[simp] theorem name_within (reveal : Reveal) (q : Question) :
    (q.within reveal).name = q.name := rfl

@[simp] theorem behind_within (reveal : Reveal) (q : Question) :
    (q.within reveal).behind = q.behind ++ [reveal] := rfl

end Question

mutual

/-- The questions of a component. -/
def Component.questions : Component → List Question
  | .single (.content _) _ => []
  | .single kind d => [⟨.single kind d, []⟩]
  | .choice variant d list reveals =>
    ⟨.choice variant d list reveals, []⟩ :: revealedQuestions d.nameText list.type reveals

/-- The questions of a group of components. -/
def questions : List Component → List Question
  | [] => []
  | c :: rest => c.questions ++ questions rest

/-- The questions of what a field reveals. -/
def revealedQuestions (chooser : String) (type : ListType) :
    List (Nat × Json × List Component) → List Question
  | [] => []
  | (_, item, components) :: rest =>
    (questions components).map (Question.within ⟨chooser, type, item⟩) ++
      revealedQuestions chooser type rest

end

/-- Whether a field is the chooser of a reveal. -/
def Component.Chooses (reveal : Reveal) : Component → Prop
  | .single _ _ => False
  | .choice _ d list reveals =>
    d.nameText = reveal.chooser ∧ list.type = reveal.type ∧
      ∃ i components, (i, reveal.item, components) ∈ reveals

theorem mem_questions_iff {q : Question} {components : List Component} :
    q ∈ questions components ↔ ∃ c ∈ components, q ∈ c.questions := by
  induction components with
  | nil => simp [questions]
  | cons c rest ih => simp [questions, ih]

theorem mem_revealedQuestions_iff {q : Question} {chooser : String} {type : ListType}
    {reveals : List (Nat × Json × List Component)} :
    q ∈ revealedQuestions chooser type reveals ↔
      ∃ i item components, (i, item, components) ∈ reveals ∧
        ∃ inner ∈ questions components, inner.within ⟨chooser, type, item⟩ = q := by
  induction reveals with
  | nil => simp [revealedQuestions]
  | cons entry rest ih =>
      obtain ⟨i, item, components⟩ := entry
      simp only [revealedQuestions, List.mem_append, List.mem_map, ih, List.mem_cons]
      constructor
      · rintro (⟨inner, hinner, rfl⟩ | ⟨j, item', components', hmem, hq⟩)
        · exact ⟨i, item, components, Or.inl rfl, inner, hinner, rfl⟩
        · exact ⟨j, item', components', Or.inr hmem, hq⟩
      · rintro ⟨j, item', components', heq | hmem, hq⟩
        · cases heq
          exact Or.inl hq
        · exact Or.inr ⟨j, item', components', hmem, hq⟩

theorem self_mem_questions : ∀ {c : Component}, c.isForm = true → ⟨c, []⟩ ∈ c.questions
  | .single (.text _) _, _ | .single (.date _) _, _ | .single (.dateParts _) _, _
  | .single .address _, _ | .single .plain _, _ => List.mem_singleton_self _
  | .single (.content _) _, h => absurd h (by simp [Component.isForm])
  | .choice _ _ _ _, _ => List.mem_cons_self ..

mutual

theorem Component.isForm_of_mem_questions : ∀ (c : Component) {q : Question},
    q ∈ c.questions → q.field.isForm = true
  | .single kind _, q, hq => by
    cases kind <;> simp_all [Component.questions, Component.isForm]
  | .choice _ _ _ reveals, q, hq => by
    rcases List.mem_cons.mp hq with rfl | hq
    · rfl
    · exact isForm_of_mem_revealedQuestions reveals hq

theorem isForm_of_mem_questions : ∀ (components : List Component) {q : Question},
    q ∈ questions components → q.field.isForm = true
  | [], _, hq => nomatch hq
  | c :: rest, q, hq => by
    rcases List.mem_append.mp hq with hq | hq
    · exact c.isForm_of_mem_questions hq
    · exact isForm_of_mem_questions rest hq

theorem isForm_of_mem_revealedQuestions : ∀ (reveals : List (Nat × Json × List Component))
    {chooser : String} {type : ListType} {q : Question},
    q ∈ revealedQuestions chooser type reveals → q.field.isForm = true
  | [], _, _, _, hq => nomatch hq
  | (_, _, components) :: rest, _, _, q, hq => by
    rcases List.mem_append.mp hq with hq | hq
    · obtain ⟨inner, hinner, rfl⟩ := List.mem_map.mp hq
      show inner.field.isForm = true
      exact isForm_of_mem_questions components hinner
    · exact isForm_of_mem_revealedQuestions rest hq

end

/-! ## Choosers and what they reveal -/

mutual

theorem Component.exists_chooser : ∀ (c : Component) {q : Question} {reveal : Reveal}
    {outer : List Reveal}, q ∈ c.questions → q.behind = reveal :: outer →
    ∃ chooser ∈ c.questions, chooser.behind = outer ∧ chooser.field.Chooses reveal
  | .single kind d, q, reveal, outer, hq, hbehind => by
    cases kind <;> simp_all [Component.questions]
  | .choice variant d list reveals, q, reveal, outer, hq, hbehind => by
    rcases List.mem_cons.mp hq with rfl | hq
    · cases hbehind
    · rcases exists_chooser_or reveals hq hbehind with ⟨rfl, hreveal⟩ | ⟨chooser, hmem, h⟩
      · obtain ⟨hchooser, htype, hitem⟩ := hreveal
        exact ⟨_, List.mem_cons_self .., rfl, hchooser, htype, hitem⟩
      · exact ⟨chooser, List.mem_cons_of_mem _ hmem, h⟩

/-- A field behind a reveal has its chooser on the page, behind the outer reveals. -/
theorem exists_chooser : ∀ (components : List Component) {q : Question} {reveal : Reveal}
    {outer : List Reveal}, q ∈ questions components → q.behind = reveal :: outer →
    ∃ chooser ∈ questions components, chooser.behind = outer ∧ chooser.field.Chooses reveal
  | [], _, _, _, hq, _ => nomatch hq
  | c :: rest, q, reveal, outer, hq, hbehind => by
    rcases List.mem_append.mp hq with hq | hq
    · obtain ⟨chooser, hmem, h⟩ := c.exists_chooser hq hbehind
      exact ⟨chooser, List.mem_append_left _ hmem, h⟩
    · obtain ⟨chooser, hmem, h⟩ := exists_chooser rest hq hbehind
      exact ⟨chooser, List.mem_append_right _ hmem, h⟩

/-- The chooser of a revealed question is the field that reveals, or a revealed question too. -/
theorem exists_chooser_or : ∀ (reveals : List (Nat × Json × List Component))
    {name : String} {type : ListType} {q : Question} {reveal : Reveal} {outer : List Reveal},
    q ∈ revealedQuestions name type reveals → q.behind = reveal :: outer →
    (outer = [] ∧ name = reveal.chooser ∧ type = reveal.type ∧
        ∃ i components, (i, reveal.item, components) ∈ reveals) ∨
      ∃ chooser ∈ revealedQuestions name type reveals,
        chooser.behind = outer ∧ chooser.field.Chooses reveal
  | [], _, _, _, _, _, hq, _ => nomatch hq
  | (i, item, components) :: rest, name, type, q, reveal, outer, hq, hbehind => by
    rcases List.mem_append.mp hq with hq | hq
    · obtain ⟨inner, hinner, rfl⟩ := List.mem_map.mp hq
      cases hinside : inner.behind with
      | nil =>
          simp only [Question.behind_within, hinside, List.nil_append, List.cons.injEq] at hbehind
          obtain ⟨rfl, rfl⟩ := hbehind
          exact Or.inl ⟨rfl, rfl, rfl, i, components, List.mem_cons_self ..⟩
      | cons reveal' outer' =>
          simp only [Question.behind_within, hinside, List.cons_append, List.cons.injEq] at hbehind
          obtain ⟨rfl, rfl⟩ := hbehind
          obtain ⟨chooser, hmem, houter, hchooses⟩ := exists_chooser components hinner hinside
          refine Or.inr ⟨chooser.within ⟨name, type, item⟩, ?_, ?_, hchooses⟩
          · exact List.mem_append_left _ (List.mem_map_of_mem hmem)
          · rw [Question.behind_within, houter]
    · rcases exists_chooser_or rest hq hbehind with ⟨h, hname, htype, j, group, hmem⟩ |
        ⟨chooser, hmem, h⟩
      · exact Or.inl ⟨h, hname, htype, j, group, List.mem_cons_of_mem _ hmem⟩
      · exact Or.inr ⟨chooser, List.mem_append_right _ hmem, h⟩

end

theorem Component.Chooses.exists_choice {c : Component} {reveal : Reveal} (h : c.Chooses reveal) :
    ∃ variant d list reveals, c = .choice variant d list reveals := by
  cases c with
  | single kind d => exact h.elim
  | choice variant d list reveals => exact ⟨variant, d, list, reveals, rfl⟩

theorem Component.Chooses.name_eq {c : Component} {reveal : Reveal} (h : c.Chooses reveal) :
    c.name = reveal.chooser := by
  obtain ⟨variant, d, list, reveals, rfl⟩ := h.exists_choice
  exact h.1

mutual

theorem Component.mem_questions_of_reveals : ∀ (c : Component) {q : Question}
    {variant : ChoiceVariant} {d : ComponentDefinition} {list : ListDefinition}
    {reveals : List (Nat × Json × List Component)} {i : Nat} {item : Json}
    {group : List Component} {field : Component},
    q ∈ c.questions → q.field = .choice variant d list reveals → (i, item, group) ∈ reveals →
    field ∈ group → field.isForm = true →
    ⟨field, ⟨d.nameText, list.type, item⟩ :: q.behind⟩ ∈ c.questions
  | .single kind _, q, _, _, _, _, _, _, _, _, hq, hfield, _, _, _ => by
    cases kind <;> simp_all [Component.questions]
  | .choice _ _ _ reveals, q, _, _, _, _, _, _, _, _, hq, hchoice, hitem, hmem, hform => by
    rcases List.mem_cons.mp hq with rfl | hq
    · cases hchoice
      refine List.mem_cons_of_mem _ (mem_revealedQuestions_iff.mpr ⟨_, _, _, hitem, ?_⟩)
      exact ⟨⟨_, []⟩, mem_questions_iff.mpr ⟨_, hmem, self_mem_questions hform⟩, rfl⟩
    · exact List.mem_cons_of_mem _
        (mem_revealedQuestions_of_reveals reveals hq hchoice hitem hmem hform)

/-- A chooser of the page has on the page whatever its items reveal. -/
theorem mem_questions_of_reveals : ∀ (components : List Component) {q : Question}
    {variant : ChoiceVariant} {d : ComponentDefinition} {list : ListDefinition}
    {reveals : List (Nat × Json × List Component)} {i : Nat} {item : Json}
    {group : List Component} {field : Component},
    q ∈ questions components → q.field = .choice variant d list reveals →
    (i, item, group) ∈ reveals → field ∈ group → field.isForm = true →
    ⟨field, ⟨d.nameText, list.type, item⟩ :: q.behind⟩ ∈ questions components
  | [], _, _, _, _, _, _, _, _, _, hq, _, _, _, _ => nomatch hq
  | c :: rest, q, _, _, _, _, _, _, _, _, hq, hchoice, hitem, hmem, hform => by
    rcases List.mem_append.mp hq with hq | hq
    · exact List.mem_append_left _ (c.mem_questions_of_reveals hq hchoice hitem hmem hform)
    · exact List.mem_append_right _ (mem_questions_of_reveals rest hq hchoice hitem hmem hform)

theorem mem_revealedQuestions_of_reveals : ∀ (outer : List (Nat × Json × List Component))
    {name : String} {type : ListType} {q : Question} {variant : ChoiceVariant}
    {d : ComponentDefinition} {list : ListDefinition}
    {reveals : List (Nat × Json × List Component)} {i : Nat} {item : Json}
    {group : List Component} {field : Component},
    q ∈ revealedQuestions name type outer → q.field = .choice variant d list reveals →
    (i, item, group) ∈ reveals → field ∈ group → field.isForm = true →
    ⟨field, ⟨d.nameText, list.type, item⟩ :: q.behind⟩ ∈ revealedQuestions name type outer
  | [], _, _, _, _, _, _, _, _, _, _, _, hq, _, _, _, _ => nomatch hq
  | (_, _, components) :: rest, _, _, q, _, _, _, _, _, _, _, _, hq, hchoice, hitem, hmem,
    hform => by
    rcases List.mem_append.mp hq with hq | hq
    · obtain ⟨inner, hinner, rfl⟩ := List.mem_map.mp hq
      have hfound := mem_questions_of_reveals components hinner hchoice hitem hmem hform
      exact List.mem_append_left _ (List.mem_map.mpr ⟨_, hfound, rfl⟩)
    · exact List.mem_append_right _
        (mem_revealedQuestions_of_reveals rest hq hchoice hitem hmem hform)

end

end Questionnaire
