import Questionnaire.Proofs.Component.Compiled
import Questionnaire.Proofs.Component.Ticking
import Questionnaire.Proofs.Page.Distinct

/-!
# Submitting stored answers again

A page is shown with the stored answers in its inputs, and what is left of the inputs is empty
(`Page.refilled`). Submitting it as it is shown is accepted and stores the same answers
(`resubmission_eq`). The form asks for the fields behind an item when the item is selected in the
texts that are submitted, and what is selected there is selected in the answers; only an item whose
value is the empty text would be selected by an answer that was not given, and where it reveals a
field that must be answered, the form is refused (`exists_resubmission_refused`).
-/

namespace Questionnaire

/-- The form filled with the stored answers of the page, with every other input left empty. -/
def Page.refilled (page : Page) (state : State) : FormData :=
  Fields.extend (Fields.ofList ((formKeys page.components).names.map fun key => (key, .str "")))
    (Questionnaire.toForm page.components state)

/-- Whether a question may go without an answer: because it is optional, or not shown. -/
def Question.mayBeSkipped (q : Question) : Bool :=
  q.isOptional || !q.behind.isEmpty

theorem Question.mayBeSkipped_of_welcomesBlank {q : Question} {fields : Fields}
    (h : welcomesBlank q.behind q.isOptional fields = true) : q.mayBeSkipped = true := by
  rw [mayBeSkipped, Bool.or_eq_true]
  cases hbehind : q.behind with
  | nil => exact Or.inl (by rwa [hbehind] at h)
  | cons reveal outer => exact Or.inr rfl

/-- No field that must be answered is revealed by the empty text, which a form submits for a choice
that was not made. -/
def Page.RevealsByChoice (page : Page) : Prop :=
  ∀ q ∈ questions page.components, q.isOptional = false →
    ∀ chooser ∈ questions page.components, chooser.mayBeSkipped = true →
      ∀ reveal outer, q.behind = reveal :: outer → chooser.field.Chooses reveal →
        reveal.item ≠ .str ""

/-- What is asked of a page so that its answers can be submitted again: fields of built-in types
that welcome no values of their own, names of their own for all answers and inputs, and reveals by
choices that are made. -/
structure Page.Refillable (page : Page) : Prop where
  builtin : ∀ q ∈ questions page.components, q.field.IsBuiltinField = true
  allow : ∀ q ∈ questions page.components, q.field.definition.constraints.allow = none
  names : (stateNames page.components).Nodup
  inputs : (formNames page.components).Nodup
  reveals : page.RevealsByChoice

theorem Page.Refillable.distinct {page : Page} (hpage : page.Refillable) : page.Distinct :=
  ⟨hpage.builtin, hpage.allow, hpage.names, hpage.inputs⟩

/-- How data of a filled form goes with the data of the submission that was stored: it holds the
same for answers that are given, and nothing for the others. -/
def Page.Resubmits (page : Page) (answers : State) (data data' : FormData) : Prop :=
  ∀ q ∈ questions page.components,
    (answers.get? q.name = some (q.field.stored data) ∧
        ∀ input ∈ q.field.inputs, input.Agrees data data') ∨
      ((answers.get? q.name = none ∨ answers.get? q.name = some .null) ∧
        ∀ input ∈ q.field.inputs, input.Agrees [] data')

/-- Every input of a field that may be left out may be left empty. -/
theorem Component.isOptional_input {c : Component} (h : c.definition.isOptional = true) :
    ∀ input ∈ c.inputs, input.isOptional = true := by
  intro input hinput
  cases c with
  | single kind d =>
      cases kind with
      | text variant =>
          obtain rfl := List.mem_singleton.mp hinput
          exact h
      | date withTime =>
          obtain rfl := List.mem_singleton.mp hinput
          exact h
      | dateParts withTime =>
          obtain ⟨part, -, rfl⟩ := List.mem_map.mp hinput
          exact h
      | address =>
          obtain ⟨part, -, rfl⟩ := List.mem_map.mp hinput
          show (!(part.core && !d.isOptional)) = true
          rw [show d.isOptional = true from h, Bool.not_true, Bool.and_false, Bool.not_false]
      | content _ => exact nomatch hinput
      | plain => exact nomatch hinput
  | choice variant d list reveals =>
      obtain rfl := List.mem_singleton.mp hinput
      exact h

/-! ## The answers of a submission -/

namespace Page.Refillable

variable {page : Page} (hpage : page.Refillable) {payload data : FormData} {answers : State}
  (hdata : page.validateForm payload = .ok data)
  (hanswers : page.validateState (page.toState data) = .ok answers)
  {q : Question} (hq : q ∈ questions page.components)

include hpage hdata hq hanswers

/-- An answer is what its field made of the submission, or it is not given, and then it need not
be. -/
theorem answer_cases :
    (answers.get? q.name = some (q.field.stored data) ∧ q.field.core.Settled (q.field.stored data)) ∨
      ((answers.get? q.name = none ∨ answers.get? q.name = some .null) ∧
        welcomesBlank q.behind q.isOptional (page.toState data) = true) := by
  have hsame := hpage.distinct.get?_answers hq hdata hanswers
  rcases Page.answer_cases hanswers hq (hpage.distinct.sole hq) (hpage.builtin q hq)
    (hpage.allow q hq) with
    ⟨-, hnone, hmust⟩ | ⟨value, answer, hvalue, hanswer, ⟨rfl, hblank⟩ | hsettled⟩
  · exact Or.inr ⟨Or.inl hnone, Question.welcomesBlank_of_not_mustBePresent hmust⟩
  · exact Or.inr ⟨Or.inr hanswer, hblank⟩
  · have hstored := hpage.distinct.get?_toState hq data
    rw [← hsame, hanswer] at hstored
    split at hstored
    · obtain rfl := Option.some.inj hstored
      exact Or.inl ⟨hanswer, hsettled⟩
    · exact nomatch hstored

/-- An answer that is kept but not given is null. -/
theorem stored_of_not_given (h : answers.get? q.name = none ∨ answers.get? q.name = some .null)
    (hkept : q.isKept data = true) : q.field.stored data = .null := by
  have hstored := hpage.distinct.get?_toState hq data
  rw [← hpage.distinct.get?_answers hq hdata hanswers, if_pos hkept] at hstored
  rcases h with h | h
  · rw [h] at hstored
    exact nomatch hstored
  · rw [h] at hstored
    exact (Option.some.inj hstored).symm

end Page.Refillable

/-! ## What a filled form selects -/

theorem Json.eq_of_looseEq_empty {item : Json} (h : (Json.str "").looseEq item = true) :
    item = .str "" := by
  rw [looseEq, Bool.or_eq_true, same_str_iff] at h
  rcases h with h | h
  · exact h
  · simp only [Bool.and_eq_true, beq_iff_eq] at h
    obtain ⟨⟨-, hscalar⟩, htext⟩ := h
    cases item with
    | bool b => cases b <;> exact absurd htext (by decide)
    | num n => exact absurd htext.symm n.text_ne_empty
    | str s => exact congrArg Json.str htext.symm
    | _ => cases hscalar

/-! ## Submitting a filled form -/

/-- What one of the names has that are given one value. -/
theorem Fields.get?_ofList_const {names : List String} {name : String} (h : name ∈ names)
    (value : Json) : (ofList (names.map fun key => (key, value))).get? name = some value := by
  have hsome : ((ofList (names.map fun key => (key, value))).get? name).isSome = true :=
    isSome_get?_extend (Or.inr ⟨value, List.mem_map_of_mem h⟩)
  obtain ⟨other, hother⟩ := Option.isSome_iff_exists.mp hsome
  obtain ⟨key, -, heq⟩ := List.mem_map.mp (mem_of_get?_ofList hother)
  rw [hother, (Prod.mk.inj heq).2]

namespace Page

/-- A filled form has inputs of the page only. -/
theorem has_of_mem_refilled {page : Page} {state : State} :
    ∀ member ∈ page.refilled state, (Side.form.groupKeys page.components).has member.1 = true := by
  intro member hmember
  rw [Keys.has_iff_mem_names, Side.mem_names_groupKeys_iff]
  rcases Fields.mem_of_mem_extend hmember with hfilled | hblank
  · have hget : (Questionnaire.toForm page.components state).get? member.1 = some member.2 :=
      (ordered_addToForm state page.components Fields.Ordered.nil).get?_of_mem hfilled
    change (addToForm state [] page.components).get? member.1 = _ at hget
    rw [get?_toForm] at hget
    obtain ⟨q, hq, hvalue⟩ := List.exists_of_findSome?_eq_some hget
    exact ⟨q, List.mem_reverse.mp hq, mem_names_of_ownForm hvalue⟩
  · rw [← Side.mem_names_groupKeys_iff, Side.groupKeys_form]
    rcases Fields.mem_of_mem_extend hblank with hmem | hmem
    · obtain ⟨key, hkey, rfl⟩ := List.mem_map.mp hmem
      exact hkey
    · exact nomatch hmem

namespace Refillable

variable {page : Page} (hpage : page.Refillable) {q : Question}
  (hq : q ∈ questions page.components)

include hpage hq

/-- An input is filled by its field, or else empty. -/
theorem get?_refilled {key : String} (hkey : key ∈ Side.form.names q) (state : State) :
    (page.refilled state).get? key = some (((q.field.ownForm state).get? key).getD (.str "")) := by
  have hordered : (Questionnaire.toForm page.components state).Ordered :=
    ordered_addToForm state page.components Fields.Ordered.nil
  have hown : (Questionnaire.toForm page.components state).get? key = (q.field.ownForm state).get? key :=
    get?_toForm_of_sole hq (hpage.distinct.soleInput hq hkey)
  have hname : key ∈ (formKeys page.components).names := by
    rw [← Side.groupKeys_form, Side.mem_names_groupKeys_iff]
    exact ⟨q, hq, hkey⟩
  rw [Page.refilled, Fields.get?_extend hordered, hown, Fields.get?_ofList_const hname]
  cases (q.field.ownForm state).get? key <;> rfl

theorem get?_refilled_of_not_given {state : State}
    (h : state.get? q.name = none ∨ state.get? q.name = some .null) {key : String}
    (hkey : key ∈ Side.form.names q) : (page.refilled state).get? key = some (.str "") := by
  rw [hpage.get?_refilled hq hkey]
  rcases Component.get?_ownForm_of_not_given h key with hnone | hblank
  · rw [hnone]
    rfl
  · rw [hblank]
    rfl

end Refillable

end Page

namespace Page.Refillable

variable {page : Page} (hpage : page.Refillable) {payload data : FormData} {answers : State}
  (hdata : page.validateForm payload = .ok data)
  (hanswers : page.validateState (page.toState data) = .ok answers)

include hpage hdata hanswers

/-- What a filled form selects was selected by the answers, except that a choice that was not made is
submitted as the empty text. -/
theorem isSelected_of_refilled {chooser : Question} (hchooser : chooser ∈ questions page.components)
    {reveal : Reveal} (hchooses : chooser.field.Chooses reveal)
    (hitem : chooser.mayBeSkipped = true → reveal.item ≠ .str "")
    (h : reveal.isSelected (page.refilled answers) = true) :
    reveal.isSelected (page.toState data) = true := by
  have hname : chooser.name = reveal.chooser := hchooses.name_eq
  rw [Reveal.isSelected, ← hname] at h ⊢
  rw [← hpage.distinct.get?_answers hchooser hdata hanswers]
  obtain ⟨variant, d, list, reveals, hfield⟩ := hchooses.exists_choice
  have hkey := Side.form.name_mem_names_choice hfield
  -- A choice that was made is shown as it was; one that was not made is shown as the empty text.
  rcases hpage.answer_cases hdata hanswers hchooser with
    ⟨hanswer, hsettled⟩ | ⟨hnot, hwelcome⟩
  · rw [hpage.get?_refilled hchooser hkey] at h
    generalize chooser.field.stored data = value at hanswer hsettled
    have hown : (chooser.field.ownForm answers).get? chooser.name = some (choiceForm value) := by
      rw [Question.name, hfield] at hanswer ⊢
      rw [Component.ownForm, show answers.get? d.nameText = some value from hanswer]
      exact Component.get?_answer _ _
    rw [hown] at h
    rw [hanswer]
    rw [hfield] at hsettled
    exact (Component.selects_choiceForm_iff hsettled).mp h
  · rw [hpage.get?_refilled_of_not_given hchooser hnot hkey] at h
    exact absurd (Json.eq_of_looseEq_empty h)
      (hitem (Question.mayBeSkipped_of_welcomesBlank hwelcome))

variable {q : Question} (hq : q ∈ questions page.components)

include hq

/-- An input of an answer that is not given may be left empty, as it is in the filled form. -/
theorem welcomesBlank_refilled
    (h : answers.get? q.name = none ∨ answers.get? q.name = some .null) {input : Input}
    (hinput : input ∈ q.field.inputs) :
    welcomesBlank q.behind input.isOptional (page.refilled answers) = true := by
  have hwelcome : welcomesBlank q.behind q.isOptional (page.toState data) = true := by
    rcases hpage.answer_cases hdata hanswers hq with ⟨hanswer, hsettled⟩ | ⟨-, hwelcome⟩
    · rcases h with h | h
      · rw [hanswer] at h
        exact nomatch h
      · rw [hanswer] at h
        exact absurd (Option.some.inj h) hsettled.ne_null
    · exact hwelcome
  have hoptional : q.isOptional = true → input.isOptional = true :=
    fun h => Component.isOptional_input h input hinput
  cases hbehind : q.behind with
  | nil =>
      rw [hbehind] at hwelcome
      exact hoptional hwelcome
  | cons reveal outer =>
      rw [hbehind, welcomesBlank, Bool.or_eq_true, Bool.not_eq_true'] at hwelcome
      rw [welcomesBlank, Bool.or_eq_true, Bool.not_eq_true']
      cases hrequired : q.isOptional with
      | true => exact Or.inl (hoptional hrequired)
      | false =>
          obtain ⟨chooser, hchooser, -, hchooses⟩ := exists_chooser page.components hq hbehind
          -- The field need not be answered because its item is not chosen, and the filled form does not
          -- choose it either.
          have hnot := hwelcome.resolve_left (Bool.eq_false_iff.mp hrequired)
          rw [← Bool.not_eq_true] at hnot
          refine Or.inr (Bool.eq_false_iff.mpr fun hselected => hnot ?_)
          exact hpage.isSelected_of_refilled hdata hanswers hchooser hchooses
            (fun hskipped => hpage.reveals q hq hrequired chooser hchooser hskipped reveal outer
              hbehind hchooses) hselected

variable {input : Input} (hinput : input ∈ q.field.inputs)

include hinput

omit hanswers in
/-- The rule of an input accepts what an answer that is given fills the input with, and takes it
for what the submission held. -/
theorem check_refilled_of_given (hgiven : answers.get? q.name = some (q.field.stored data))
    (hsettled : q.field.core.Settled (q.field.stored data)) :
    ∃ member, (Side.form.behind q.behind input.rule).check {} input.name
        (some (page.refilled answers)) ((page.refilled answers).get? input.name) = .pass member ∧
      (data.get? input.name = some member ∨ member = .str "" ∧ data.get? input.name = none) := by
  have hcore := Component.isField_input (hpage.builtin q hq) input hinput
  have hfill := Component.refilled_of_stored (hpage.builtin q hq) (hpage.distinct.holds hq hdata)
    hgiven hsettled input hinput
  rw [hpage.get?_refilled hq (hpage.distinct.mem_names hq hinput), input.check_behind]
  rcases hfill with ⟨hblank, hoptional, hdataBlank⟩ | ⟨text, value, htext, hvalue, hreads⟩
  · refine ⟨.str "", ?_, ?_⟩
    · rw [hblank, Option.getD_some]
      refine ((Rule.isField_asked ..).mpr hcore).check_allowed {} input.name _ ?_
      rw [Rule.attributes_asked, hoptional]
      cases q.behind <;> rfl
    · exact hdataBlank.symm.imp_right fun hnone => ⟨rfl, hnone⟩
  · refine ⟨value, ?_, Or.inl hvalue⟩
    rw [htext, Option.getD_some]
    exact hreads _ _ _ _ (blanks_welcome (Or.inr rfl) _)

/-- The rule of an input accepts that an answer that is not given leaves the input empty. -/
theorem check_refilled_of_not_given
    (h : answers.get? q.name = none ∨ answers.get? q.name = some .null) :
    (Side.form.behind q.behind input.rule).check {} input.name
      (some (page.refilled answers)) ((page.refilled answers).get? input.name) =
        .pass (.str "") := by
  have hcore := Component.isField_input (hpage.builtin q hq) input hinput
  have hwelcome := hpage.welcomesBlank_refilled hdata hanswers hq h hinput
  rw [hpage.get?_refilled_of_not_given hq h (hpage.distinct.mem_names hq hinput),
    input.check_behind]
  refine ((Rule.isField_asked ..).mpr hcore).check_allowed {} input.name _ ?_
  rw [Rule.attributes_asked, hwelcome]
  rfl

omit hq hinput

/-- A filled form is accepted. What it is converted to holds the inputs of answers that are given as
the submission did, and leaves those of other answers empty. -/
theorem validateForm_refilled :
    ∃ data', page.validateForm (page.refilled answers) = .ok data' ∧
      page.Resubmits answers data data' := by
  have haccepts : Rule.Accepts {} (Side.form.groupKeys page.components)
      (page.refilled answers) := by
    refine ⟨?_, Page.has_of_mem_refilled⟩
    rintro ⟨key, rule⟩ hentry
    have hname : key ∈ (Side.form.groupKeys page.components).names := List.mem_map_of_mem hentry
    -- Every rule for the form is that of one input of one field.
    obtain ⟨q, hq, hkey⟩ := Side.form.mem_names_groupKeys_iff.mp hname
    obtain ⟨⟨_, own⟩, hown, rfl⟩ := List.mem_map.mp hkey
    rw [own_form (hpage.builtin q hq) (hpage.allow q hq)] at hown
    obtain ⟨input, hinput, heq⟩ := List.mem_map.mp hown
    obtain ⟨rfl, rfl⟩ := Prod.mk.inj heq
    have hrule := Side.form.get?_groupKeys_of_sole hq (hpage.distinct.mem_own hq hinput)
      (hpage.distinct.soleInput hq (hpage.distinct.mem_names hq hinput))
    rw [Keys.get?_of_mem (Side.form.nodup_groupKeys page.components) hentry] at hrule
    obtain rfl := Option.some.inj hrule
    rcases hpage.answer_cases hdata hanswers hq with ⟨hgiven, hsettled⟩ | ⟨hnot, -⟩
    · obtain ⟨member, hcheck, -⟩ :=
        hpage.check_refilled_of_given hdata hq hinput hgiven hsettled
      exact congrArg Checked.failures hcheck
    · exact congrArg Checked.failures
        (hpage.check_refilled_of_not_given hdata hanswers hq hinput hnot)
  refine ⟨Side.form.converted page.components (page.refilled answers), ?_, ?_⟩
  · refine Page.validate_eq_ok_iff.mpr ?_
    rw [← Side.groupKeys_form]
    exact ⟨haccepts, rfl⟩
  · intro q hq
    have hmember : ∀ input ∈ q.field.inputs, _ := fun input hinput =>
      (Side.check_of_accepts haccepts hq (hpage.distinct.mem_own hq hinput)
        (hpage.distinct.soleInput hq (hpage.distinct.mem_names hq hinput))).2
    rcases hpage.answer_cases hdata hanswers hq with ⟨hgiven, hsettled⟩ | ⟨hnot, -⟩
    · refine Or.inl ⟨hgiven, fun input hinput => ?_⟩
      obtain ⟨member, hcheck, hsame⟩ :=
        hpage.check_refilled_of_given hdata hq hinput hgiven hsettled
      rw [Input.Agrees, hmember input hinput, hcheck]
      rcases hsame with hsame | ⟨rfl, hnone⟩
      · exact Or.inl hsame.symm
      · exact Or.inr ⟨rfl, hnone⟩
    · refine Or.inr ⟨hnot, fun input hinput => ?_⟩
      rw [Input.Agrees, hmember input hinput,
        hpage.check_refilled_of_not_given hdata hanswers hq hinput hnot]
      exact Or.inr ⟨rfl, rfl⟩

/-! ## The answers of a filled form -/

variable {data' : FormData} (hagain : page.Resubmits answers data data')

include hagain hq

/-- An answer that was kept is made again. -/
theorem stored_again (hkept : q.isKept data = true) :
    q.field.stored data' = q.field.stored data := by
  have hbuiltin := hpage.builtin q hq
  rcases hagain q hq with ⟨-, hinputs⟩ | ⟨hnot, hinputs⟩
  · exact Component.stored_congr hbuiltin hinputs
  · rw [Component.stored_congr hbuiltin hinputs, Component.stored_nil hbuiltin,
      hpage.stored_of_not_given hdata hanswers hq hnot hkept]

/-- The items on the way to a field are chosen again. -/
theorem isChosen_again {behind : List Reveal} (hbehind : q.behind = behind) :
    behind.all (Reveal.isChosen data') = behind.all (Reveal.isChosen data) := by
  induction behind generalizing q with
  | nil => rfl
  | cons reveal outer ih =>
      obtain ⟨chooser, hchooser, houter, hchooses⟩ := exists_chooser page.components hq hbehind
      rw [List.all_cons, List.all_cons, ih hchooser houter]
      cases hall : outer.all (Reveal.isChosen data) with
      | false => rw [Bool.and_false, Bool.and_false]
      | true =>
          -- The chooser is shown, so what it has chosen is kept.
          have hkept : chooser.isKept data = true := by
            rw [Question.isKept, houter, hall, Bool.or_true]
          have hstored := hpage.stored_again hdata hanswers hchooser hagain hkept
          have hchosen : reveal.isChosen data' = reveal.isChosen data := by
            rw [Component.Chooses.isChosen_eq hchooses, Component.Chooses.isChosen_eq hchooses,
              hstored]
          rw [hchosen]

theorem isKept_again : q.isKept data' = q.isKept data := by
  have hchosen := hpage.isChosen_again hdata hanswers hq hagain rfl
  cases hkept : q.isKept data with
  | true =>
      rw [Question.isKept, hpage.stored_again hdata hanswers hq hagain hkept, hchosen]
      exact hkept
  | false =>
      rw [Question.isKept, Bool.or_eq_false_iff] at hkept
      rw [Question.isKept, hchosen, hkept.2, Bool.or_false]
      have hbuiltin := hpage.builtin q hq
      rcases hagain q hq with ⟨-, hinputs⟩ | ⟨-, hinputs⟩
      · rw [Component.stored_congr hbuiltin hinputs]
        exact hkept.1
      · rw [Component.stored_congr hbuiltin hinputs, Component.stored_nil hbuiltin]
        rfl

omit hq

/-- The state made of a filled form is the one that was made of the submission. -/
theorem toState_again : page.toState data' = page.toState data := by
  refine Fields.Ordered.ext (ordered_addToState data' page.components Fields.Ordered.nil)
    (ordered_addToState data page.components Fields.Ordered.nil) ?_
  intro key
  change (Questionnaire.toState page.components data').get? key =
    (Questionnaire.toState page.components data).get? key
  by_cases hkey : ∃ q ∈ questions page.components, q.name = key
  · obtain ⟨q, hq, rfl⟩ := hkey
    rw [get?_toState data' hq (hpage.distinct.sole hq),
      get?_toState data hq (hpage.distinct.sole hq), hpage.isKept_again hdata hanswers hq hagain]
    split
    · next hkept => rw [hpage.stored_again hdata hanswers hq hagain hkept]
    · rfl
  · have hnone : ∀ payload, (Questionnaire.toState page.components payload).get? key = none := by
      intro payload
      rw [Option.eq_none_iff_forall_ne_some]
      intro value hvalue
      obtain ⟨q, hq, hname, -⟩ := exists_question payload page.components hvalue
      exact hkey ⟨q, hq, hname⟩
    rw [hnone, hnone]

end Page.Refillable

namespace Page

/-- Submitting stored answers again changes nothing: once a submission has proceeded, the form filled
with its answers is accepted, and the answers made of it are the same. -/
theorem resubmission_eq {page : Page} {definition : PageDefinition}
    {sections : List SectionDefinition} {context : CompileContext} {conditions : Registry}
    {options : Options} {payload : FormData} {store store' : Store} {next : String} {state : State}
    (hcompile : Page.compile definition sections context conditions options = .ok page)
    (hbuiltin : context.types.IsBuiltin)
    (hallow : ∀ q ∈ questions page.components, q.field.definition.constraints.allow = none)
    (hnames : (stateNames page.components).Nodup) (hinputs : (formNames page.components).Nodup)
    (hreveals : page.RevealsByChoice)
    (hsubmit : page.submit payload store = (.ok (.proceed next state), store')) :
    ∃ answers data, page.answers payload = .ok answers ∧
      page.validateForm (page.refilled answers) = .ok data ∧
      page.validateState (page.toState data) = .ok answers := by
  have hfields := isBuiltinField_of_compileGroup hbuiltin (compileGroup_of_compile hcompile)
  have hpage : page.Refillable := ⟨hfields, hallow, hnames, hinputs, hreveals⟩
  obtain ⟨answers, hanswers, -, -⟩ := submit_proceed hsubmit
  obtain ⟨data, hdata, hstate⟩ := answers_eq_ok_iff.mp hanswers
  obtain ⟨data', hdata', hagain⟩ := hpage.validateForm_refilled hdata hstate
  refine ⟨answers, data', hanswers, hdata', ?_⟩
  rw [hpage.toState_again hdata hstate hagain]
  exact hstate

/-! ### A visit, and a reason for it -/

/-- A field as it is written. -/
def visitField (type name title : String) (options : ComponentOptions) : ComponentDefinition :=
  { type := type, name := some name, title := some title, options := options }

/-- Why there is a visit, said in words. -/
def visitReason : ComponentDefinition :=
  visitField "TextField" "reason" "Reason" {}

/-- The kinds of visit, of which one asks for a reason. -/
def visitKinds (unusual : String) : ListDefinition :=
  { name := "kind", title := "Kind", type := .string,
    items := [{ text := "Other", value := .str unusual, revealed := some [visitReason] },
      { text := "Delivery", value := .str "delivery" }] }

/-- When there is a visit, and of which kind, which may be left open. -/
def visitDefinition : PageDefinition :=
  { path := "/visit",
    components :=
      [visitField "DatePartsField" "start" "Start" {},
        visitField "RadiosField" "kind" "Kind" { required := some false, list := some "kind" }] }

/-- The page of a visit. -/
def visitPage (unusual : String) : Page :=
  ⟨"/visit", "", none,
    [.single (.dateParts false) (visitField "DatePartsField" "start" "Start" {}),
      .choice .radios
        (visitField "RadiosField" "kind" "Kind" { required := some false, list := some "kind" })
        (visitKinds unusual) [(0, .str unusual, [.single (.text .line) visitReason])]],
    [], ⟨[], []⟩, {}⟩

theorem compile_visit (unusual : String) :
    Page.compile visitDefinition [] ⟨[visitKinds unusual], .builtin, "/visit"⟩ ⟨[], []⟩ {} =
      .ok (visitPage unusual) := rfl

/-- The day of a visit, as it is typed. -/
def visitStart : FormData :=
  [("start__day", .str " 05"), ("start__month", .str "3"), ("start__year", .str "2024")]

/-- A visit for a reason, as it is typed. -/
def visitData : FormData :=
  [("kind", .str "other"), ("reason", .str " Leak ")] ++ visitStart

theorem revealsByChoice_visit : (visitPage "other").RevealsByChoice := by
  intro q hq _ chooser _ _ reveal outer hbehind _
  have hitems : ∀ q ∈ questions (visitPage "other").components, ∀ reveal ∈ q.behind,
      reveal.item ≠ .str "" := by decide +kernel
  refine hitems q hq reveal ?_
  rw [hbehind]
  exact List.mem_cons_self ..

theorem resubmission_eq_visit :
    (visitPage "other").RevealsByChoice ∧
      ∃ answers data, (visitPage "other").answers visitData = .ok answers ∧
        (visitPage "other").validateForm ((visitPage "other").refilled answers) = .ok data ∧
        (visitPage "other").validateState ((visitPage "other").toState data) = .ok answers := by
  have hanswers : (visitPage "other").answers visitData =
      .ok [("kind", .str "other"), ("reason", .str "Leak"), ("start", .str "2024-03-05")] := by
    decide +kernel
  have hsubmit := submit_inMemory hanswers []
  exact ⟨revealsByChoice_visit, resubmission_eq (compile_visit "other")
    TypeRegistry.isBuiltin_builtin (by decide +kernel) (by decide +kernel) (by decide +kernel)
    revealsByChoice_visit hsubmit⟩

/-- Where the empty text reveals a field that must be answered, a choice that was not made is
submitted again as one that was, and the form is refused. -/
theorem exists_resubmission_refused :
    ∃ page next state store answers,
      Page.compile visitDefinition [] ⟨[visitKinds ""], .builtin, "/visit"⟩ ⟨[], []⟩ {} = .ok page ∧
        (∀ q ∈ questions page.components, q.field.definition.constraints.allow = none) ∧
        (stateNames page.components).Nodup ∧ (formNames page.components).Nodup ∧
        page.submit visitStart (.inMemory []) = (.ok (.proceed next state), store) ∧
        page.answers visitStart = .ok answers ∧
        ∀ data, page.validateForm (page.refilled answers) ≠ .ok data := by
  have hanswers : (visitPage "").answers visitStart =
      .ok [("kind", .null), ("start", .str "2024-03-05")] := by
    decide +kernel
  refine ⟨visitPage "", _, _, _, _, compile_visit "", by decide +kernel, by decide +kernel,
    by decide +kernel, submit_inMemory hanswers [], hanswers, ?_⟩
  intro data hdata
  have hrefused : ((visitPage "").validateForm ((visitPage "").refilled
      [("kind", .null), ("start", .str "2024-03-05")])).isOk = false := by
    decide +kernel
  rw [hdata] at hrefused
  exact nomatch hrefused

end Page

end Questionnaire
