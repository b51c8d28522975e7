import Questionnaire.Proofs.Component.Stored
import Questionnaire.Proofs.Number.Exact
import Questionnaire.Proofs.Page.Storing

/-!
# Submitted integers

A number field goes by way of floating point: what is submitted is read as the nearest number, and
that is kept as an integer where it is whole and below `2 ^ 63` (`AsksNumber.stored_eq`). So an integer
is stored as it is submitted just when it is exact (`integer_stored_iff`), and another number takes its
place otherwise.
-/

namespace Questionnaire

/-- The ways to give an integer: as a number, or as its decimal text between blanks. -/
inductive Spells (n : Int) : Json → Prop
  | number : Spells n (.ofInt n)
  | text {s : String} (h : Text.trim s = toString n) : Spells n (.str s)

namespace Spells

variable {n : Int} {value : Json}

/-- Either way the integer is read as the number nearest to it. -/
theorem numberOf?_eq (hspells : Spells n value) (h : IsWord n) :
    Leaf.numberOf? value = some (Number.int n h).toBinary64 := by
  cases hspells with
  | number => rw [Json.ofInt, Number.ofInt, dif_pos h]; rfl
  | text htrim => rw [Leaf.numberOf?, htrim, Binary64.ofText?_toString h]

end Spells

/-! ## What a number field asks -/

theorem Attributes.not_allows_of_reads {a : Attributes} (hblanks : Blanks a.allow) {value : Json}
    {x : Binary64} (hread : Leaf.numberOf? value = some x) : a.allows value = false := by
  rw [← Bool.not_eq_true, Attributes.allows_iff hblanks]
  intro hmem
  -- Only null and the empty text can be welcome, and neither is read as a number.
  have hempty : Leaf.numberOf? (.str "") = none := by decide +kernel
  rcases hblanks value hmem with rfl | rfl
  · cases hread
  · cases hempty.symm.trans hread

/-- A rule for numbers without constraints takes what is read as a number, and keeps the number. -/
theorem check_leaf_number {a : Attributes} (hblanks : Blanks a.allow) (hvalid : a.valid = none)
    {value : Json} {x : Binary64} (hread : Leaf.numberOf? value = some x)
    (options : ValidationOptions) (name : String) (siblings : Option Fields) :
    (Rule.leaf (.number {}) a).check options name siblings (some value) =
      .pass (Leaf.numberValue x) := by
  refine Rule.check_leaf_of_converts options name siblings ?_ ?_
    (Attributes.not_allows_of_reads hblanks hread) ?_
  · intro allowsEmpty label
    rw [Leaf.check, hread]
    rfl
  · intro choices hchoices
    cases hvalid.symm.trans hchoices
  · rintro rfl
    cases hread

theorem validate_number {value : Json} {x : Binary64} (hread : Leaf.numberOf? value = some x)
    (options : ValidationOptions) :
    Rule.number.validate options value = .ok (Leaf.numberValue x) := by
  rw [Rule.validate, Rule.number, check_leaf_number blanks_nil rfl hread]
  generalize Leaf.numberValue x = kept
  rfl

/-- However the rule of a number field is asked, it takes what is read as a number. -/
theorem check_asked_number {d : ComponentDefinition} (h : d.constraints = {}) (required : Bool)
    {allow : List Json} (hblanks : Blanks allow) {value : Json} {x : Binary64}
    (hread : Leaf.numberOf? value = some x) (options : ValidationOptions) (name : String)
    (siblings : Option Fields) :
    ((described d .number).asked required allow).check options name siblings (some value) =
      .pass (Leaf.numberValue x) := by
  rw [Rule.number, described_unconstrained h]
  exact check_leaf_number hblanks rfl hread options name siblings

namespace Page

variable {page : Page} {q : Question} {d : ComponentDefinition}

/-- A page asks for a number without constraints, under a name that is its own both among the
answers and among the inputs. -/
structure AsksNumber (page : Page) (q : Question) (d : ComponentDefinition) : Prop where
  mem : q ∈ questions page.components
  field : q.field = .single (.text .number) d
  constraints : d.constraints = {}
  answer : (stateNames page.components).count d.nameText = 1
  input : (formNames page.components).count d.nameText = 1

namespace AsksNumber

variable (h : page.AsksNumber q d) {payload data : FormData} {value : Json} {x : Binary64}
  (hgiven : payload.get? d.nameText = some value) (hread : Leaf.numberOf? value = some x)
  (hdata : page.validateForm payload = .ok data)

include h

theorem name_eq : q.name = d.nameText := by
  rw [Question.name, h.field]
  rfl

theorem isBuiltinField : q.field.IsBuiltinField = true := by
  rw [h.field]
  rfl

theorem allow_eq : q.field.definition.constraints.allow = none := by
  rw [h.field]
  exact congrArg AnswerConstraints.allow h.constraints

theorem sole : ∀ other ∈ questions page.components, other.name = q.name → other = q :=
  fun _ hother hname => eq_of_count_stateNames (h.name_eq ▸ h.answer) h.mem hother hname

include hgiven hread hdata

/-- The form keeps of what is submitted the number that it is read as. -/
theorem get?_data : data.get? d.nameText = some (Leaf.numberValue x) := by
  obtain ⟨haccepts, rfl⟩ := accepts_of_validateForm hdata
  have hinput : (⟨d.nameText, described d .number, d.isOptional⟩ : Input) ∈ q.field.inputs := by
    rw [h.field]
    exact List.mem_singleton_self _
  have hown := List.mem_map_of_mem (f := fun input : Input => (input.name, input.rule)) hinput
  rw [← own_form h.isBuiltinField h.allow_eq] at hown
  have hname : d.nameText ∈ Side.form.names q := List.mem_map_of_mem hown
  obtain ⟨-, hvalue⟩ := Side.check_of_accepts haccepts h.mem hown fun other hother hkey =>
    eq_of_count_formNames h.input h.mem hname hother hkey
  rw [hvalue, Input.check_behind, hgiven,
    check_asked_number h.constraints _ (blanks_welcome (.inr rfl) _) hread]
  rfl

theorem stored_eq : q.field.stored data = Leaf.numberValue x := by
  obtain ⟨n, hn⟩ := Leaf.numberValue_eq_num x
  rw [h.field, Component.stored, h.get?_data hgiven hread hdata, hn]
  rfl

/-- A number counts as given unless it is zero. -/
theorem isKept (hshown : x.isZero = true → ∀ reveal ∈ q.behind, reveal.isChosen data = true) :
    q.isKept data = true := by
  rw [Question.isKept, h.stored_eq hgiven hread hdata, Leaf.isTruthy_numberValue]
  cases hzero : x.isZero with
  | false => rfl
  | true => exact List.all_eq_true.mpr (hshown hzero)

/-- The number is answered, if its question keeps an answer at all. -/
theorem get?_answers {answers : State}
    (hanswers : page.validateState (page.toState data) = .ok answers) (hkept : q.isKept data = true) :
    answers.get? d.nameText = some (Leaf.numberValue x) := by
  obtain ⟨y, hread', hvalue, -⟩ := Leaf.numberOf?_numberValue x
  have hstored : (page.toState data).get? d.nameText = some (Leaf.numberValue x) := by
    have hquestion := get?_toState data h.mem h.sole
    rwa [h.name_eq, if_pos hkept, h.stored_eq hgiven hread hdata] at hquestion
  obtain ⟨-, hanswer⟩ :=
    check_asked_of_validateState hanswers h.mem h.sole h.isBuiltinField h.allow_eq
  rw [h.name_eq, hstored, Question.askedCore, h.field] at hanswer
  rw [hanswer, Component.core, TextVariant.base,
    check_asked_number h.constraints _ (blanks_welcome (.inl rfl) _) hread', hvalue]
  rfl

end AsksNumber

/-- An integer of 64 bits is read as one value, however it is given, and kept as such: by the rule for
numbers, and in the state that a page stores which asks for a number. The value is the integer just
when that is exact. Zero is not kept where it is submitted behind an item that is not chosen. -/
theorem integer_stored_iff {n : Int} (hlow : -int64Limit ≤ n) (hhigh : n < int64Limit)
    {value : Json} (hspells : Spells n value) :
    ∃ kept, (kept = .ofInt n ↔ IsExact n) ∧
      (∀ options, Rule.number.validate options value = .ok kept) ∧
      ∀ {page : Page} {q : Question} {d : ComponentDefinition} {payload data : FormData}
        {store store' : Store} {next : String} {state : State},
        page.AsksNumber q d → payload.get? d.nameText = some value →
        page.submit payload store = (.ok (.proceed next state), store') →
        page.validateForm payload = .ok data →
        (n = 0 → ∀ reveal ∈ q.behind, reveal.isChosen data = true) →
        ∃ stored, page.pageState? state = some stored ∧ stored.get? d.nameText = some kept := by
  have hword : IsWord n := by
    simp only [IsWord, int64Limit, word64Limit] at hlow hhigh ⊢
    omega
  have hread := hspells.numberOf?_eq hword
  refine ⟨Leaf.numberValue (Number.int n hword).toBinary64, ?_, ?_, ?_⟩
  · rw [Json.ofInt, Number.ofInt, dif_pos hword]
    exact Leaf.numberValue_toBinary64_iff hword
  · exact fun options => validate_number hread options
  · intro page q d payload data store store' next state hasks hgiven hsubmit hdata hshown
    obtain ⟨answers, hanswers, rfl, -⟩ := submit_proceed hsubmit
    obtain ⟨stored, hstored, hmerges, -⟩ :=
      pageState?_merge page store.held (ordered_answers hanswers)
    obtain ⟨data', hdata', hstate⟩ := answers_eq_ok_iff.mp hanswers
    obtain rfl := Except.ok.inj (hdata.symm.trans hdata')
    have hkept := hasks.isKept hgiven hread hdata fun hzero =>
      hshown ((Binary64.isZero_toBinary64_iff hword).mp hzero)
    obtain ⟨kept, hvalue⟩ := Leaf.numberValue_eq_num (Number.int n hword).toBinary64
    -- A number that is merged takes the place of what was stored.
    have hmerged := hmerges d.nameText
    rw [hasks.get?_answers hgiven hread hdata hstate hkept, hvalue] at hmerged
    refine ⟨stored, hstored, hmerged.trans ?_⟩
    rw [hvalue]
    exact congrArg some ((mergeValue_eq_iff _ rfl).mpr rfl)

end Page

/-! ## A reference number -/

/-- The number that a letter refers to. -/
def referenceField : ComponentDefinition :=
  { type := "NumberField", name := some "reference", title := some "Reference" }

/-- A page that asks for it. -/
def referencePage : Page :=
  ⟨"/reference", "", none, [.single (.text .number) referenceField], [], ⟨[], []⟩, {}⟩

theorem asksNumber_reference :
    referencePage.AsksNumber ⟨.single (.text .number) referenceField, []⟩ referenceField :=
  ⟨.head _, rfl, rfl, by decide, by decide⟩

/-- The first integer above `2 ^ 53` is stored as the one below it. -/
theorem Page.integer_stored_reference :
    ∃ stored kept,
      referencePage.pageState? [("reference", .ofInt 9007199254740992)] = some stored ∧
        stored.get? "reference" = some kept ∧
        Rule.number.validate {} (.str " 9007199254740993 ") = .ok kept ∧
        kept ≠ .ofInt 9007199254740993 := by
  have hspells : Spells 9007199254740993 (.str " 9007199254740993 ") := .text (by decide +kernel)
  have hdata : referencePage.validateForm [("reference", .str " 9007199254740993 ")] =
      .ok [("reference", .ofInt 9007199254740992)] := by
    decide +kernel
  have hanswers : referencePage.answers [("reference", .str " 9007199254740993 ")] =
      .ok [("reference", .ofInt 9007199254740992)] := by
    decide +kernel
  obtain ⟨kept, hkept, hrule, hpages⟩ := integer_stored_iff (by decide) (by decide) hspells
  obtain ⟨stored, hstored, hvalue⟩ := hpages asksNumber_reference rfl
    (submit_inMemory hanswers []) hdata nofun
  exact ⟨stored, kept, hstored, hvalue, hrule {}, hkept.not.mpr (by decide +kernel)⟩

end Questionnaire
