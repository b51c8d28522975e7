import Questionnaire.Page.Basic
import Questionnaire.Proofs.Component.Choosing

/-!
# The answers of a page

What a page accepts, question by question. A question that alone contributes its name has its own
rule in the page's rule for the state (`check_of_validateState`). A chooser that alone contributes
its name on both sides has in the validated state what the submission gave it
(`get?_chooser`), so an item is selected after validation just when it was before.
-/

namespace Questionnaire

/-- The names of the stored answers of a group of components, each as often as it is contributed. -/
def stateNames (components : List Component) : List String :=
  (questions components).map Question.name

/-- The names of the inputs of a group of components, each as often as it is contributed. -/
def formNames (components : List Component) : List String :=
  (questions components).flatMap Side.form.names

/-- A page stores an answer for the field that reveals one of its questions. -/
theorem chooser_mem_stateNames {components : List Component} {q : Question}
    (hq : q ∈ questions components) {reveal : Reveal} (hreveal : reveal ∈ q.behind.head?) :
    reveal.chooser ∈ stateNames components := by
  obtain ⟨outer, hbehind⟩ := List.head?_eq_some_iff.mp hreveal
  obtain ⟨chooser, hchooser, -, hchooses⟩ := exists_chooser components hq hbehind
  exact List.mem_map.mpr ⟨chooser, hchooser, hchooses.name_eq⟩

theorem eq_of_count_flatMap {α : Type} {f : α → List String} {key : String} :
    ∀ {l : List α}, (l.flatMap f).count key = 1 → ∀ {a b : α}, a ∈ l → key ∈ f a → b ∈ l →
      key ∈ f b → a = b := by
  intro l
  induction l with
  | nil => exact fun _ _ _ ha => nomatch ha
  | cons first rest ih =>
      intro hcount a b ha hka hb hkb
      have hmem : ∀ {x}, x ∈ rest → key ∈ f x → 0 < (rest.flatMap f).count key := by
        intro x hx hkx
        exact List.count_pos_iff.mpr (List.mem_flatMap.mpr ⟨x, hx, hkx⟩)
      rw [List.flatMap_cons, List.count_append] at hcount
      rcases List.mem_cons.mp ha with rfl | ha' <;> rcases List.mem_cons.mp hb with rfl | hb'
      · rfl
      · have := hmem hb' hkb
        have := List.count_pos_iff.mpr hka
        omega
      · have := hmem ha' hka
        have := List.count_pos_iff.mpr hkb
        omega
      · have := hmem ha' hka
        exact ih (by omega) ha' hka hb' hkb

theorem eq_of_count_stateNames {components : List Component} {q other : Question}
    (hcount : (stateNames components).count q.name = 1) (hq : q ∈ questions components)
    (hother : other ∈ questions components) (hname : other.name = q.name) : other = q := by
  rw [stateNames, List.map_eq_flatMap] at hcount
  exact eq_of_count_flatMap hcount hother (by simp [hname]) hq (by simp)

theorem eq_of_count_formNames {components : List Component} {q other : Question} {key : String}
    (hcount : (formNames components).count key = 1) (hq : q ∈ questions components)
    (hkey : key ∈ Side.form.names q) (hother : other ∈ questions components)
    (hkey' : key ∈ Side.form.names other) : other = q :=
  eq_of_count_flatMap hcount hother hkey' hq hkey

namespace Page

variable {page : Page}

theorem validate_eq_ok_iff {keys : Keys} {fields converted : Fields} :
    page.validate (Rule.ofKeys keys).required fields = .ok converted ↔
      Rule.Accepts {} keys fields ∧ converted = (Rule.checkKeys {} keys fields).1 := by
  unfold validate
  cases hvalue : (Rule.ofKeys keys).required.validate {} (.obj fields) with
  | error failures =>
      constructor
      · exact nofun
      · rintro ⟨haccepts, -⟩
        rw [Rule.validate_ofKeys_eq_ok_iff.mpr ⟨haccepts, rfl⟩] at hvalue
        exact nomatch hvalue
  | ok value =>
      obtain ⟨haccepts, rfl⟩ := Rule.validate_ofKeys_eq_ok_iff.mp hvalue
      constructor
      · intro h
        exact ⟨haccepts, (Except.ok.inj h).symm⟩
      · rintro ⟨-, rfl⟩
        rfl

theorem validate_eq_error_iff {rule : Rule} {fields : Fields} {summary : ErrorSummary} :
    page.validate rule fields = .error summary ↔
      summary.title = page.options.errorSummaryTitle ∧
        rule.validate {} (.obj fields) = .error summary.failures := by
  unfold validate
  cases hvalidate : rule.validate {} (.obj fields) with
  | error failures => cases summary; simp [eq_comm]
  | ok value => cases value <;> simp

theorem answers_eq_ok_iff {payload : FormData} {answers : State} :
    page.answers payload = .ok answers ↔
      ∃ data, page.validateForm payload = .ok data ∧
        page.validateState (page.toState data) = .ok answers := by
  unfold Page.answers
  cases page.validateForm payload with
  | error summary => simp
  | ok data => simp

/-! ## Stored answers -/

theorem accepts_of_validateState {state answers : State}
    (h : page.validateState state = .ok answers) :
    Rule.Accepts {} (Side.state.groupKeys page.components) state ∧
      answers = Side.state.converted page.components state := by
  rw [Side.converted, Side.groupKeys_state]
  exact validate_eq_ok_iff.mp h

theorem accepts_of_validateForm {payload data : FormData}
    (h : page.validateForm payload = .ok data) :
    Rule.Accepts {} (Side.form.groupKeys page.components) payload ∧
      data = Side.form.converted page.components payload := by
  rw [Side.converted, Side.groupKeys_form]
  exact validate_eq_ok_iff.mp h

section

variable {state answers : State} (h : page.validateState state = .ok answers) {q : Question}
  (hq : q ∈ questions page.components)
  (hsole : ∀ other ∈ questions page.components, other.name = q.name → other = q)

theorem mem_own_state {components : List Component} {q : Question}
    (hq : q ∈ questions components) : (q.name, q.field.ownState) ∈ Side.state.own q.field := by
  rw [Component.own_state (isForm_of_mem_questions components hq)]
  exact List.mem_singleton_self _

theorem sole_names_state {components : List Component} {q : Question}
    (hsole : ∀ other ∈ questions components, other.name = q.name → other = q) :
    ∀ other ∈ questions components, q.name ∈ Side.state.names other → other = q := by
  intro other hother hname
  rw [names_state hother] at hname
  exact hsole other hother (List.mem_singleton.mp hname).symm

include h hq hsole

/-- The answer to a question meets the field's own rule behind its reveals. -/
theorem check_of_validateState :
    ((Side.state.behind q.behind q.field.ownState).check {} q.name (some state)
        (state.get? q.name)).failures = [] ∧
      answers.get? q.name = ((Side.state.behind q.behind q.field.ownState).check {} q.name
        (some state) (state.get? q.name)).value := by
  obtain ⟨haccepts, rfl⟩ := accepts_of_validateState h
  exact Side.check_of_accepts haccepts hq (mem_own_state hq) (sole_names_state hsole)

/-- The answer to a question meets the field's rule as the answers ask it. -/
theorem check_asked_of_validateState (hfield : q.field.IsBuiltinField = true)
    (hallow : q.field.definition.constraints.allow = none) :
    ((q.askedCore state).check {} q.name (some state) (state.get? q.name)).failures = [] ∧
      answers.get? q.name =
        ((q.askedCore state).check {} q.name (some state) (state.get? q.name)).value := by
  have hcheck := check_of_validateState h hq hsole
  rwa [ownState_eq_asked hfield hallow, q.check_askedCore] at hcheck

/-- What the answers hold for a question: nothing where nothing was, null where it is welcome, or
else a value that the field's rule leaves alone. -/
theorem answer_cases (hfield : q.field.IsBuiltinField = true)
    (hallow : q.field.definition.constraints.allow = none) :
    (state.get? q.name = none ∧ answers.get? q.name = none ∧
        mustBePresent q.behind q.isOptional state = false) ∨
      ∃ value answer, state.get? q.name = some value ∧ answers.get? q.name = some answer ∧
        ((answer = .null ∧ welcomesBlank q.behind q.isOptional state = true) ∨
          q.field.core.Settled answer) := by
  obtain ⟨haccepts, rfl⟩ := accepts_of_validateState h
  have hown := mem_own_state hq
  rw [ownState_eq_asked hfield hallow] at hown
  exact Side.converted_cases haccepts (Or.inl rfl) hq hown (isField_core hfield hallow)
    (sole_names_state hsole)

end

/-! ## Choosers -/

section

variable {payload data : FormData} {answers : State} {q : Question} {variant : ChoiceVariant}
  {d : ComponentDefinition} {list : ListDefinition}
  {reveals : List (Nat × Json × List Component)}

/-- A submitted choice is missing, blank, or a value that the field's rule leaves alone. -/
theorem choice_cases (h : page.validateForm payload = .ok data)
    (hq : q ∈ questions page.components) (hchoice : q.field = .choice variant d list reveals)
    (hallow : d.constraints.allow = none)
    (hsole : ∀ other ∈ questions page.components, d.nameText ∈ Side.form.names other →
      other = q) :
    storedChoice list.type (data.get? d.nameText) = .null ∨
      (variant.formCore d list).Settled (storedChoice list.type (data.get? d.nameText)) := by
  obtain ⟨haccepts, rfl⟩ := accepts_of_validateForm h
  have hown : (d.nameText, (variant.formCore d list).asked (!d.isOptional)
      (welcome (.str "") d.isOptional)) ∈ Side.form.own q.field := by
    rw [hchoice, ← variant.formRule_eq_asked hallow list]
    exact List.mem_singleton_self _
  have hcore : (variant.formCore d list).IsField := by
    rcases formCore_forms variant d list reveals with ⟨kind, a, -, hsort, hform, -⟩ |
      ⟨a, hvalid, hform, -⟩
    · rw [hform]
      exact .one (Leaf.ne_any_of_sort hsort list.type.leaf_ne_any)
    · rw [hform]
      exact .several list.type.leaf_ne_any hvalid
  rcases Side.converted_cases haccepts (Or.inr rfl) hq hown hcore hsole with
    ⟨-, hnone, -⟩ | ⟨value, member, -, hmember, ⟨rfl, -⟩ | hsettled⟩
  · rw [hnone]
    exact Or.inl rfl
  · rw [hmember]
    exact Or.inl rfl
  · rw [hmember, storedChoice_of_settled hsettled]
    exact Or.inr hsettled

/-- What a chooser selects is settled by the submission: validation leaves it as it is. -/
theorem get?_chooser (hdata : page.validateForm payload = .ok data)
    (hanswers : page.validateState (page.toState data) = .ok answers)
    (hq : q ∈ questions page.components) (hchoice : q.field = .choice variant d list reveals)
    (hallow : d.constraints.allow = none)
    (hform : ∀ other ∈ questions page.components, q.name ∈ Side.form.names other → other = q)
    (hstate : ∀ other ∈ questions page.components, other.name = q.name → other = q) :
    answers.get? q.name = (page.toState data).get? q.name := by
  have hname : q.name = d.nameText := by rw [Question.name, hchoice]; rfl
  have hbuiltin : q.field.IsBuiltinField = true := by rw [hchoice]; rfl
  have hdefinition : q.field.definition = d := by rw [hchoice]; rfl
  have hstored : q.field.stored data = storedChoice list.type (data.get? d.nameText) := by
    rw [hchoice]
    rfl
  obtain ⟨hpass, hanswer⟩ :=
    check_asked_of_validateState hanswers hq hstate hbuiltin (by rw [hdefinition]; exact hallow)
  have hasked := q.isField_askedCore (page.toState data)
    (isField_core hbuiltin (by rw [hdefinition]; exact hallow))
  have hkept := get?_toState data hq hstate
  rw [hstored] at hkept
  change (page.toState data).get? q.name = _ at hkept
  rw [hanswer]
  rw [hkept] at hpass ⊢
  split at hpass
  · rw [if_pos ‹_›]
    rcases choice_cases hdata hq hchoice hallow (by rw [← hname]; exact hform) with hnull | hsettled
    · rw [hnull] at hpass ⊢
      cases hallows : (q.askedCore (page.toState data)).attributes.allows .null with
      | true =>
          rw [hasked.check_allowed _ _ _ hallows]
          rfl
      | false => exact absurd hpass (hasked.check_null _ _ _ hallows)
    · rw [Question.askedCore, hchoice] at hpass ⊢
      rw [check_core_of_settled hsettled (blanks_welcome (Or.inl rfl) _) hpass]
      rfl
  · rw [if_neg ‹_›, hasked.check_none]
    split <;> rfl

end

end Page

end Questionnaire
