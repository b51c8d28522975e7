import Questionnaire.Proofs.Page.Storing
import Questionnaire.Proofs.Rule.Merging

/-!
# Consistent answers

Answers are stored page by page, and a page may be submitted again with less: the answers to fields
that are no longer revealed stay behind. What is kept of a page is nevertheless consistent at any
time (`Question.Consistent`), and once the page has proceeded it is complete as well
(`Question.Complete`): a submission makes it so (`Consistent.complete_of_answers`), and what other
pages store does not touch it (`Consistent.congr`). Complete answers pass the rule for the state as
they are (`Complete.check_ownState`).
-/

namespace Questionnaire

namespace Question

/-- What stored answers hold for a question at any time. -/
structure Consistent (q : Question) (stored : State) : Prop where
  settled : ∀ value, stored.get? q.name = some value → value = .null ∨ q.field.core.Settled value
  blank : stored.get? q.name = some .null → welcomesBlank q.behind q.isOptional stored = true
  revealed : q.behind ≠ [] → mustBePresent q.behind q.isOptional stored = true →
    (stored.get? q.name).isSome = true

/-- What stored answers hold for a question once its page has proceeded. -/
structure Complete (q : Question) (stored : State) : Prop extends q.Consistent stored where
  present : mustBePresent q.behind q.isOptional stored = true →
    (stored.get? q.name).isSome = true

theorem consistent_nil (q : Question) : q.Consistent [] := by
  refine ⟨nofun, nofun, ?_⟩
  intro hbehind hmust
  cases hreveals : q.behind with
  | nil => exact absurd hreveals hbehind
  | cons reveal outer =>
      rw [hreveals] at hmust
      exact nomatch hmust

/-- How a question is asked depends on the chooser of its innermost reveal alone. -/
theorem asked_congr {behind : List Reveal} {stored stored' : State}
    (h : ∀ reveal ∈ behind.head?, stored'.get? reveal.chooser = stored.get? reveal.chooser)
    (isOptional : Bool) :
    mustBePresent behind isOptional stored' = mustBePresent behind isOptional stored ∧
      welcomesBlank behind isOptional stored' = welcomesBlank behind isOptional stored := by
  cases behind with
  | nil => exact ⟨rfl, rfl⟩
  | cons reveal outer =>
      have hselected : reveal.isSelected stored' = reveal.isSelected stored := by
        rw [Reveal.isSelected, Reveal.isSelected, h reveal rfl]
      exact ⟨hselected, by rw [welcomesBlank, welcomesBlank, hselected]⟩

variable {q : Question} {stored stored' : State}

theorem Consistent.congr (h : q.Consistent stored)
    (hname : stored'.get? q.name = stored.get? q.name)
    (hchooser : ∀ reveal ∈ q.behind.head?,
      stored'.get? reveal.chooser = stored.get? reveal.chooser) : q.Consistent stored' := by
  obtain ⟨hmust, hwelcome⟩ := asked_congr hchooser q.isOptional
  constructor
  · rw [hname]
    exact h.settled
  · rw [hname, hwelcome]
    exact h.blank
  · rw [hname, hmust]
    exact h.revealed

theorem Complete.congr (h : q.Complete stored) (hname : stored'.get? q.name = stored.get? q.name)
    (hchooser : ∀ reveal ∈ q.behind.head?,
      stored'.get? reveal.chooser = stored.get? reveal.chooser) : q.Complete stored' := by
  refine ⟨h.toConsistent.congr hname hchooser, ?_⟩
  rw [hname, (asked_congr hchooser q.isOptional).1]
  exact h.present

theorem welcomesBlank_of_not_mustBePresent {behind : List Reveal} {isOptional : Bool}
    (h : mustBePresent behind isOptional stored = false) :
    welcomesBlank behind isOptional stored = true := by
  cases behind with
  | nil => simpa [mustBePresent, welcomesBlank] using h
  | cons reveal outer =>
      have hselected : reveal.isSelected stored = false := h
      rw [welcomesBlank, hselected, Bool.not_false, Bool.or_true]

theorem complete_of_settled {value : Json} (hvalue : stored.get? q.name = some value)
    (hsettled : q.field.core.Settled value) : q.Complete stored := by
  have hsome : (stored.get? q.name).isSome = true := by
    rw [hvalue]
    rfl
  refine ⟨⟨?_, ?_, fun _ _ => hsome⟩, fun _ => hsome⟩
  · intro other hother
    rw [hvalue] at hother
    exact Or.inr (Option.some.inj hother ▸ hsettled)
  · intro hnull
    rw [hvalue] at hnull
    exact absurd (Option.some.inj hnull) hsettled.ne_null

theorem complete_of_null (hvalue : stored.get? q.name = some .null)
    (hwelcome : welcomesBlank q.behind q.isOptional stored = true) : q.Complete stored := by
  have hsome : (stored.get? q.name).isSome = true := by
    rw [hvalue]
    rfl
  refine ⟨⟨?_, fun _ => hwelcome, fun _ _ => hsome⟩, fun _ => hsome⟩
  intro other hother
  rw [hvalue] at hother
  exact Or.inl (Option.some.inj hother).symm

theorem Consistent.complete_of_not_mustBePresent (h : q.Consistent stored)
    (hname : stored'.get? q.name = stored.get? q.name)
    (hmust : mustBePresent q.behind q.isOptional stored' = false) : q.Complete stored' := by
  have hnot : ¬ mustBePresent q.behind q.isOptional stored' = true := by
    rw [hmust]
    exact nofun
  refine ⟨⟨?_, ?_, fun _ htrue => absurd htrue hnot⟩, fun htrue => absurd htrue hnot⟩
  · rw [hname]
    exact h.settled
  · intro _
    exact welcomesBlank_of_not_mustBePresent hmust

/-- Complete answers pass the rule for the state as they are. -/
theorem Complete.check_ownState (h : q.Complete stored) (hbuiltin : q.field.IsBuiltinField = true)
    (hallow : q.field.definition.constraints.allow = none) (options : ValidationOptions) :
    (Side.state.behind q.behind q.field.ownState).check options q.name (some stored)
      (stored.get? q.name) = ⟨stored.get? q.name, []⟩ := by
  have hcore := isField_core hbuiltin hallow
  have hfield := q.isField_askedCore stored hcore
  rw [ownState_eq_asked hbuiltin hallow, q.check_askedCore]
  cases hvalue : stored.get? q.name with
  | none =>
      rw [hfield.check_none, Question.askedCore, Rule.attributes_asked, if_neg]
      intro hmust
      have hsome := h.present hmust
      rw [hvalue] at hsome
      cases hsome
  | some value =>
      rcases h.settled value hvalue with rfl | hsettled
      · refine hfield.check_allowed options q.name (some stored) ?_
        rw [Question.askedCore, Rule.attributes_asked, h.blank hvalue]
        rfl
      · refine Rule.Settled.check_eq hfield ?_ ((Rule.settled_asked ..).mpr hsettled) options q.name
          (some stored)
        rw [Question.askedCore, Rule.attributes_asked]
        exact blanks_welcome (Or.inl rfl) _

end Question

/-! ## A submission of the page -/

/-- What is asked of a page so that its answers stay consistent: fields of built-in types that
welcome no values of their own, answers under names of their own, and choosers whose names no other
input has. -/
structure Page.WellFormed (page : Page) : Prop where
  builtin : ∀ q ∈ questions page.components, q.field.IsBuiltinField = true
  allow : ∀ q ∈ questions page.components, q.field.definition.constraints.allow = none
  names : (stateNames page.components).Nodup
  inputs : ∀ q ∈ questions page.components, ∀ reveal, q.field.Chooses reveal →
    (formNames page.components).count q.name = 1

namespace Page

variable {page : Page}

theorem WellFormed.sole (hpage : page.WellFormed) {q : Question}
    (hq : q ∈ questions page.components) :
    ∀ other ∈ questions page.components, other.name = q.name → other = q := by
  intro other hother hname
  exact List.inj_on_of_nodup_map hpage.names hother hq hname

section

variable (hpage : page.WellFormed) {payload data : FormData} {answers : State}
  (hdata : page.validateForm payload = .ok data)
  (hanswers : page.validateState (page.toState data) = .ok answers)

include hpage hdata hanswers

/-- What a chooser holds in the answers it held already in the state made of the submission. -/
theorem WellFormed.get?_chooser {chooser : Question} (hchooser : chooser ∈ questions page.components)
    {reveal : Reveal} (hchooses : chooser.field.Chooses reveal) :
    answers.get? reveal.chooser = (page.toState data).get? reveal.chooser := by
  have hname : chooser.name = reveal.chooser := hchooses.name_eq
  have hcount := hpage.inputs chooser hchooser reveal hchooses
  have hallow := hpage.allow chooser hchooser
  obtain ⟨variant, d, list, reveals, hfield⟩ := hchooses.exists_choice
  rw [hfield] at hallow
  have hown := Side.form.name_mem_names_choice hfield
  rw [← hname]
  exact Page.get?_chooser hdata hanswers hchooser hfield hallow
    (fun other hother hkey => eq_of_count_formNames hcount hchooser hown hother hkey)
    (hpage.sole hchooser)

omit hdata in
theorem WellFormed.answer_cases {q : Question} (hq : q ∈ questions page.components) :
    ((page.toState data).get? q.name = none ∧ answers.get? q.name = none ∧
        mustBePresent q.behind q.isOptional (page.toState data) = false) ∨
      ∃ value answer, (page.toState data).get? q.name = some value ∧
        answers.get? q.name = some answer ∧
        ((answer = .null ∧ welcomesBlank q.behind q.isOptional (page.toState data) = true) ∨
          q.field.core.Settled answer) :=
  Page.answer_cases hanswers hq (hpage.sole hq) (hpage.builtin q hq) (hpage.allow q hq)

omit hdata in
/-- A chooser answers with null or a value its rule leaves alone, but never with an object. -/
theorem WellFormed.chooser_ne_obj {chooser : Question}
    (hchooser : chooser ∈ questions page.components) {reveal : Reveal}
    (hchooses : chooser.field.Chooses reveal) {value : Json}
    (hvalue : answers.get? reveal.chooser = some value) (fields : Fields) :
    value ≠ .obj fields := by
  have hname : chooser.name = reveal.chooser := hchooses.name_eq
  rw [← hname] at hvalue
  rcases hpage.answer_cases hanswers hchooser with ⟨-, hnone, -⟩ |
    ⟨-, answer, -, hanswer, ⟨rfl, -⟩ | hsettled⟩
  · rw [hvalue] at hnone
    exact nomatch hnone
  · rw [hvalue] at hanswer
    obtain rfl := Option.some.inj hanswer
    exact nofun
  · rw [hvalue] at hanswer
    obtain rfl := Option.some.inj hanswer
    obtain ⟨variant, d, list, reveals, hfield⟩ := hchooses.exists_choice
    rw [hfield] at hsettled
    rcases formCore_forms variant d list reveals with ⟨kind, -, a, hsort, -, hcore⟩ |
      ⟨a, -, -, hcore⟩
    · rw [hcore] at hsettled
      cases hsettled with
      | one h _ => exact h.ne_obj (Leaf.ne_any_of_sort hsort list.type.leaf_ne_any) fields
    · rw [hcore] at hsettled
      cases hsettled with
      | single h _ => exact h.ne_obj list.type.leaf_ne_any fields
      | many _ => exact nofun

omit hdata in
/-- An answer of null behind a reveal was made with everything on the way to it chosen, the chooser
of the reveal included. -/
theorem WellFormed.chooser_of_null {q chooser : Question} (hq : q ∈ questions page.components)
    (hnull : answers.get? q.name = some .null) {reveal : Reveal} {outer : List Reveal}
    (hbehind : q.behind = reveal :: outer) (hchooser : chooser ∈ questions page.components)
    (houter : chooser.behind = outer) (hname : chooser.name = reveal.chooser) :
    ((page.toState data).get? reveal.chooser).isSome = true := by
  have hstored : (page.toState data).get? q.name = some .null := by
    rcases hpage.answer_cases hanswers hq with ⟨-, hnone, -⟩ | ⟨value, answer, hvalue, -, -⟩
    · rw [hnull] at hnone
      exact nomatch hnone
    · by_cases hne : value = .null
      · rw [hvalue, hne]
      · obtain ⟨hpass, hanswer⟩ := check_asked_of_validateState hanswers hq (hpage.sole hq)
          (hpage.builtin q hq) (hpage.allow q hq)
        rw [hvalue] at hpass hanswer
        obtain ⟨converted, hconverted, hconverted_ne⟩ := Rule.ne_null_of_check hne hpass
        rw [hconverted, hnull] at hanswer
        exact absurd (Option.some.inj hanswer).symm hconverted_ne
  -- Null does not count as given, so it was kept for what is chosen.
  have hkept : q.isKept data = true := by
    rw [Page.toState, get?_toState data hq (hpage.sole hq)] at hstored
    split at hstored
    · assumption
    · exact nomatch hstored
  have hnotGiven : (q.field.stored data).isTruthy = false := by
    rw [Page.toState, get?_toState data hq (hpage.sole hq), if_pos hkept] at hstored
    rw [Option.some.inj hstored]
    rfl
  rw [Question.isKept, hnotGiven, hbehind, Bool.false_or, List.all_cons, Bool.and_eq_true] at hkept
  have hchooserKept : chooser.isKept data = true := by
    rw [Question.isKept, houter, hkept.2, Bool.or_true]
  rw [← hname, Page.toState, get?_toState data hchooser (hpage.sole hchooser),
    if_pos hchooserKept]
  rfl

/-- Once a page has proceeded, what is stored of it is complete. -/
theorem WellFormed.complete_of_answers {stored stored' : State} (hmerges : Merges stored answers stored')
    {q : Question} (hq : q ∈ questions page.components) (hstored : q.Consistent stored) :
    q.Complete stored' := by
  have hcore := isField_core (hpage.builtin q hq) (hpage.allow q hq)
  have hown := hmerges q.name
  -- The chooser of the innermost reveal was either answered anew, and the answers ask the question
  -- as the submission did, or left as it was, and then the submission did not select its item.
  by_cases hfresh : ∀ reveal ∈ q.behind.head?,
      stored'.get? reveal.chooser = (page.toState data).get? reveal.chooser
  · obtain ⟨hmust, hwelcome⟩ := Question.asked_congr hfresh q.isOptional
    rcases hpage.answer_cases hanswers hq with ⟨-, hnone, hnot⟩ |
      ⟨value, answer, -, hanswer, ⟨rfl, hblank⟩ | hsettled⟩
    · rw [hnone] at hown
      exact hstored.complete_of_not_mustBePresent hown (hmust.trans hnot)
    · rw [hanswer] at hown
      exact Question.complete_of_null hown (hwelcome.trans hblank)
    · rw [hanswer] at hown
      exact Question.complete_of_settled hown (hsettled.mergeValue hcore hstored.settled)
  · cases hbehind : q.behind with
    | nil =>
        rw [hbehind] at hfresh
        exact absurd nofun hfresh
    | cons reveal outer =>
        obtain ⟨chooser, hchooser, houter, hchooses⟩ := exists_chooser page.components hq hbehind
        have hsame := hpage.get?_chooser hdata hanswers hchooser hchooses
        have hchooserMerges := hmerges reveal.chooser
        cases hvalue : answers.get? reveal.chooser with
        | some value =>
            have hne := hpage.chooser_ne_obj hanswers hchooser hchooses hvalue
            rw [hvalue] at hchooserMerges
            have hset : stored'.get? reveal.chooser = some value :=
              hchooserMerges.trans (congrArg some (mergeValue_of_ne_obj _ hne))
            refine absurd ?_ hfresh
            intro reveal' hreveal'
            rw [hbehind] at hreveal'
            obtain rfl := Option.some.inj hreveal'
            rw [hset, ← hsame, hvalue]
        | none =>
            rw [hvalue] at hchooserMerges
            have hstale : ∀ reveal' ∈ q.behind.head?,
                stored'.get? reveal'.chooser = stored.get? reveal'.chooser := by
              intro reveal' hreveal'
              rw [hbehind] at hreveal'
              obtain rfl := Option.some.inj hreveal'
              exact hchooserMerges
            rcases hpage.answer_cases hanswers hq with ⟨-, hnone, -⟩ |
              ⟨value, answer, -, hanswer, ⟨rfl, -⟩ | hsettled⟩
            · rw [hnone] at hown
              have hkept := hstored.congr hown hstale
              refine ⟨hkept, hkept.revealed ?_⟩
              rw [hbehind]
              exact nofun
            · have hchosen := hpage.chooser_of_null hanswers hq hanswer hbehind hchooser houter
                hchooses.name_eq
              rw [← hsame, hvalue] at hchosen
              exact nomatch hchosen
            · rw [hanswer] at hown
              exact Question.complete_of_settled hown (hsettled.mergeValue hcore hstored.settled)

end

end Page

end Questionnaire
