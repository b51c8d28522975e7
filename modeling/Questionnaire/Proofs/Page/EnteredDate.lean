import Questionnaire.Proofs.Component.Refilling
import Questionnaire.Proofs.Component.SharedNames
import Questionnaire.Proofs.Number.Submitted
import Questionnaire.Proofs.Page.Storing

/-!
# Dates entered in parts

What a page stores of a date that is entered in parts is the date that was entered. Each part that is
submitted gets into the validated data as the number that it is or spells, or it was left blank
(`PassesPart`). Parts that make no date are kept as they were typed, which the rule for the stored date
refuses, unless the field's definition welcomes just that text.
-/

namespace Questionnaire

/-! ## Parts as they are submitted -/

/-- A part is submitted as a whole number, or as a text that spells it. -/
def Enters (given : Option Json) (n : Int) : Prop :=
  ∃ value x, given = some value ∧ Leaf.numberOf? value = some x ∧ x.isWhole = true ∧ x.truncate = n

/-- A part is not submitted, or submitted as a blank text. -/
def IsBlankPart (given : Option Json) : Prop :=
  ∀ value, given = some value → ∃ s, value = .str s ∧ Text.isBlankText s = true

theorem Enters.not_isBlankPart {given : Option Json} {n : Int} (h : Enters given n) :
    ¬ IsBlankPart given := by
  obtain ⟨value, x, rfl, hread, -, -⟩ := h
  intro hblank
  obtain ⟨s, rfl, hs⟩ := hblank value rfl
  rw [Leaf.numberOf?_of_isBlankText hs] at hread
  exact nomatch hread

theorem Enters.eq_truncate {value : Json} {n : Int} (h : Enters (some value) n) {x : Binary64}
    (hread : Leaf.numberOf? value = some x) : n = x.truncate := by
  obtain ⟨_, y, ⟨⟩, hy, -, rfl⟩ := h
  rw [Option.some.inj (hread.symm.trans hy)]

theorem isBlankPart_none : IsBlankPart none := nofun

theorem isBlankPart_empty : IsBlankPart (some (.str "")) := by
  rintro _ ⟨⟩
  exact ⟨"", rfl, rfl⟩

/-- How a part gets from the submission into the validated data. -/
inductive PassesPart (isOptional : Bool) (given kept : Option Json) : Prop
  | blank (hoptional : isOptional = true) (hgiven : IsBlankPart given)
      (hnumber : partNumber? kept = none) (htyped : partTyped kept = "")
  | number {n : Nat} (hgiven : Enters given n) (hnumber : partNumber? kept = some n)
      (htyped : partTyped kept ≠ "")

namespace PassesPart

variable {isOptional : Bool} {given kept : Option Json}

theorem enters (h : PassesPart isOptional given kept) {n : Nat} (hn : partNumber? kept = some n) :
    Enters given n := by
  cases h with
  | blank _ _ hnumber _ => exact nomatch hn.symm.trans hnumber
  | number hgiven hnumber _ => exact Option.some.inj (hn.symm.trans hnumber) ▸ hgiven

theorem isBlankPart_of_typed (h : PassesPart isOptional given kept) (htyped : partTyped kept = "") :
    isOptional = true ∧ IsBlankPart given := by
  cases h with
  | blank hoptional hgiven _ _ => exact ⟨hoptional, hgiven⟩
  | number _ _ hne => exact absurd htyped hne

end PassesPart

/-- The bounds of a part are natural numbers that 32 bits hold. -/
theorem DatePart.exists_bounds {withTime : Bool} {part : DatePart}
    (h : part ∈ datePartsOf withTime) :
    ∃ (low high : Nat) (hlow : low < twoPow 53) (hhigh : high < twoPow 53),
      part.min = .ofNat low hlow ∧ part.max = .ofNat high hhigh ∧ high < word32Limit := by
  have hmem : part ∈ dateParts ++ timeParts := by
    cases withTime with
    | false => exact List.mem_append_left _ h
    | true => exact h
  simp only [dateParts, timeParts, List.cons_append, List.nil_append, List.mem_cons,
    List.not_mem_nil, or_false] at hmem
  rcases hmem with rfl | rfl | rfl | rfl | rfl <;>
    exact ⟨_, _, by decide, by decide, rfl, rfl, by decide⟩

/-- What the number of a part is kept as. -/
theorem DatePart.partNumber?_numberValue {withTime : Bool} {part : DatePart}
    (hpart : part ∈ datePartsOf withTime) {c : NumberConstraints} (hleaf : part.leaf = .number c)
    {x : Binary64} (hfaults : Leaf.numberFaults c x = []) :
    ∃ n : Nat, x.isWhole = true ∧ x.truncate = n ∧
      partNumber? (some (Leaf.numberValue x)) = some n ∧
      partTyped (some (Leaf.numberValue x)) ≠ "" := by
  obtain ⟨low, high, hlow, hhigh, hmin, hmax, hword⟩ := DatePart.exists_bounds hpart
  cases hleaf
  obtain ⟨hwhole, hsmall, hlarge⟩ := Leaf.numberFaults_eq_nil hfaults
  obtain ⟨n, htruncate, -, hn⟩ := Binary64.truncate_between (hwhole rfl) hlow hhigh
    (hsmall _ (congrArg (some <| Float64.number <| .finite ·) hmin))
    (hlarge _ (congrArg (some <| Float64.number <| .finite ·) hmax))
  have hless : n < word32Limit := Nat.lt_of_le_of_lt hn hword
  have hkept : Leaf.KeptWhole x := by
    refine ⟨hwhole rfl, ?_⟩
    rw [htruncate, Int.natAbs_natCast]
    exact Nat.lt_trans hless (by decide)
  refine ⟨n, hwhole rfl, htruncate, ?_, ?_⟩
  · rw [Leaf.numberValue_of_keptWhole hkept]
    simp [partNumber?, Number.nat?, htruncate, hless, Option.filter]
  · rw [Leaf.numberValue_of_keptWhole hkept, partTyped]
    exact Number.text_ne_empty _

/-- A part that its rule passes is blank, where the field is optional, or a number. -/
theorem DatePart.passesPart {withTime : Bool} {part : DatePart} (hpart : part ∈ datePartsOf withTime)
    {d : ComponentDefinition} {name : String} {siblings : Option Fields} {given kept : Option Json}
    (h : (part.rule d).check {} name siblings given = ⟨kept, []⟩) :
    PassesPart d.isOptional given kept := by
  rw [part.rule_eq] at h
  rcases Rule.check_leaf_eq_iff.mp h with
    hrequired | @⟨value, hallows⟩ | @⟨value, w, -, ⟨-, hcheck⟩, -⟩
  · exact .blank (by simpa using hrequired) isBlankPart_none rfl rfl
  · -- Only the empty text is welcome, and only where the field is optional.
    obtain ⟨rfl, hoptional⟩ :=
      mem_welcome_iff.mp ((Attributes.allows_iff (blanks_welcome (.inr rfl) _)).mp hallows)
    exact .blank hoptional isBlankPart_empty (by decide +kernel) (by decide +kernel)
  · simp only [DatePart.leaf, Leaf.check] at hcheck
    split at hcheck
    · next x hread =>
      obtain ⟨hvalue, hfaults⟩ := Checked.mk.inj hcheck
      obtain rfl := Option.some.inj hvalue
      obtain ⟨n, hwhole, htruncate, hnumber, htyped⟩ :=
        DatePart.partNumber?_numberValue hpart rfl (List.map_eq_nil_iff.mp hfaults)
      exact .number ⟨value, x, rfl, hread, hwhole, htruncate⟩ hnumber htyped
    · cases hcheck

/-! ## What is made of the parts -/

namespace SubmittedDate

theorem typed_of_isBlank {withTime : Bool} {name : String} {data : FormData}
    (h : (SubmittedDate.of withTime name data).isBlank = true) :
    ∀ part ∈ datePartsOf withTime, partTyped (data.get? (partName name part.key)) = "" := by
  cases withTime <;>
    simp_all [isBlank, SubmittedDate.of, datePartsOf, dateParts, timeParts]

end SubmittedDate

/-- The definition of a field welcomes what is stored of the submitted parts although it is no
date. -/
def ComponentDefinition.WelcomesNoDate (d : ComponentDefinition) (withTime : Bool)
    (data : FormData) : Prop :=
  ∃ s, (SubmittedDate.of withTime d.nameText data).stored = .str s ∧
    canonicalDate? withTime s = none ∧
    (stateRule d (dateBase withTime)).attributes.allows (.str s) = true

theorem stateRule_dateBase (d : ComponentDefinition) (withTime : Bool) :
    ∃ a, stateRule d (dateBase withTime) = .leaf (dateLeaf withTime) a := by
  obtain ⟨a, hdescribed⟩ := described_dateBase d withTime
  unfold stateRule presence
  rw [hdescribed]
  split <;> exact ⟨_, rfl⟩

/-- Of the parts of a date the rule for the stored date passes null, where nothing was typed, and the
date that they make. -/
theorem SubmittedDate.Holds.passes_cases {withTime : Bool} {d : ComponentDefinition}
    {data : FormData} (h : (SubmittedDate.of withTime d.nameText data).Holds)
    (hwelcome : ¬ d.WelcomesNoDate withTime data) {name : String} {siblings : Option Fields}
    {answer : Option Json}
    (hcheck : (stateRule d (dateBase withTime)).check {} name siblings
      (some (SubmittedDate.of withTime d.nameText data).stored) = ⟨answer, []⟩) :
    (answer = some .null ∧ (SubmittedDate.of withTime d.nameText data).isBlank = true) ∨
      ∃ text, (SubmittedDate.of withTime d.nameText data).assembled? = some text ∧
        answer = some (.str text) := by
  have hassembled := h.assembled?_eq
  rw [time_isSome] at hassembled
  obtain ⟨a, hrule⟩ := stateRule_dateBase d withTime
  unfold ComponentDefinition.WelcomesNoDate at hwelcome
  rw [hrule] at hcheck hwelcome
  have hframes := Rule.check_leaf_eq_iff.mp hcheck
  unfold stored at hframes hwelcome
  cases hcanonical : (SubmittedDate.of withTime d.nameText data).assembled? with
  | some text =>
      rw [hcanonical] at hframes hassembled
      have hsettled := settled_of_canonicalDate? hassembled.symm
      refine .inr ⟨text, rfl, ?_⟩
      rcases hframes with - | - | ⟨-, ⟨-, hpass⟩, -⟩
      · rfl
      · exact congrArg Checked.value (hpass.symm.trans (hsettled.check_eq ..))
  | none =>
      rw [hcanonical] at hframes hassembled hwelcome
      dsimp only at hframes hwelcome
      split at hframes
      · next hblank =>
        rcases hframes with - | - | ⟨-, ⟨hnull, -⟩, -⟩
        · exact .inl ⟨rfl, hblank⟩
        · exact absurd (hnull rfl) (dateLeaf_ne_any withTime)
      · next hblank =>
        rw [if_neg hblank] at hwelcome
        rcases hframes with - | hallows | ⟨-, ⟨-, hpass⟩, -⟩
        · exact absurd ⟨_, rfl, hassembled.symm, hallows⟩ hwelcome
        · exact absurd (congrArg Checked.failures hpass)
            (check_of_canonicalDate?_none hassembled.symm _ _)

/-! ## Pages that ask for a date -/

namespace Page

/-- A compiled page asks for a date in parts, and stores no other field under the same name. -/
structure AsksDate (page : Page) (withTime : Bool) (d : ComponentDefinition) : Prop where
  compiled : ∃ definition sections context conditions options,
    Page.compile definition sections context conditions options = .ok page
  field : .single (.dateParts withTime) d ∈ page.components
  answer : (stateNames page.components).count d.nameText = 1

namespace AsksDate

variable {page : Page} {withTime : Bool} {d : ComponentDefinition} (h : page.AsksDate withTime d)

include h

theorem mem : ⟨.single (.dateParts withTime) d, []⟩ ∈ questions page.components :=
  mem_questions_iff.mpr ⟨_, h.field, self_mem_questions rfl⟩

theorem sole : ∀ other ∈ questions page.components,
    other.name = d.nameText → other = ⟨.single (.dateParts withTime) d, []⟩ :=
  fun _ hother hname => eq_of_count_stateNames h.answer h.mem hother hname

section

variable {part : DatePart} (hpart : part ∈ datePartsOf withTime)

include hpart

omit h in
theorem mem_own : (partName d.nameText part.key, part.rule d) ∈
    Side.form.own (.single (.dateParts withTime) d) := by
  show _ ∈ Keys.ofList _
  rw [ofList_parts (fun part : DatePart => part.rule d) (nodup_datePartsOf withTime)]
  exact List.mem_map_of_mem hpart

/-- No other field of the page has the part among its inputs. -/
theorem soleInput : ∀ other ∈ questions page.components,
    partName d.nameText part.key ∈ Side.form.names other →
      other = ⟨.single (.dateParts withTime) d, []⟩ := by
  intro other hother hname
  obtain ⟨_, _, _, _, _, hcompile⟩ := h.compiled
  obtain ⟨_, -, hgroup⟩ := Except.bind_eq_ok_iff.mp (compileGroup_of_compile hcompile)
  exact List.mem_singleton.mp (mem_questions_of_input (pairwise_disjoint_formKeys hgroup) h.field rfl
    (List.mem_map_of_mem (mem_own hpart)) hother hname)

end

section

variable {payload data : FormData} (hdata : page.validateForm payload = .ok data)

include hdata

theorem passesPart {part : DatePart} (hpart : part ∈ datePartsOf withTime) :
    PassesPart d.isOptional (payload.get? (partName d.nameText part.key))
      (data.get? (partName d.nameText part.key)) := by
  obtain ⟨haccepts, rfl⟩ := accepts_of_validateForm hdata
  obtain ⟨hpass, hkept⟩ :=
    Side.check_of_accepts haccepts h.mem (mem_own hpart) (h.soleInput hpart)
  rw [hkept]
  exact DatePart.passesPart hpart (Checked.eq_of_passes hpass)

theorem holds : (SubmittedDate.of withTime d.nameText data).Holds := by
  obtain ⟨haccepts, rfl⟩ := accepts_of_validateForm hdata
  refine SubmittedDate.holds_of (d := d) fun input hinput value hvalue => ?_
  obtain ⟨part, hpart, rfl⟩ := List.mem_map.mp hinput
  have hown := mem_own (d := d) hpart
  rw [part.rule_eq] at hown
  rcases Side.converted_cases haccepts (.inr rfl) h.mem hown (.one nofun) (h.soleInput hpart) with
    ⟨-, hnone, -⟩ | ⟨_, member, -, hmember, hcases⟩
  · exact nomatch hvalue.symm.trans hnone
  · obtain rfl := Option.some.inj (hmember.symm.trans hvalue)
    exact hcases.imp And.left id

/-- The answer of the page is null, where nothing was typed, or the date that the parts make. -/
theorem answer_cases {answers : State}
    (hanswers : page.validateState (page.toState data) = .ok answers)
    (hwelcome : ¬ d.WelcomesNoDate withTime data) :
    (answers.get? d.nameText = some .null ∧
        (SubmittedDate.of withTime d.nameText data).isBlank = true) ∨
      ∃ text, (SubmittedDate.of withTime d.nameText data).assembled? = some text ∧
        answers.get? d.nameText = some (.str text) := by
  have hstored := get?_toState data h.mem h.sole
  obtain ⟨hpass, hvalue⟩ := check_of_validateState hanswers h.mem h.sole
  change (page.toState data).get? _ = _ at hstored
  -- Nothing stands in front of the field, so its answer is kept.
  rw [if_pos (by simp [Question.isKept])] at hstored
  rw [hstored] at hpass hvalue
  rw [show answers.get? d.nameText = _ from hvalue]
  exact (h.holds hdata).passes_cases hwelcome (Checked.eq_of_passes hpass)

/-- Parts that are left blank are so as they were submitted, and may be. -/
theorem isBlankPart_of_isBlank (hblank : (SubmittedDate.of withTime d.nameText data).isBlank = true) :
    d.isOptional = true ∧
      ∀ part ∈ datePartsOf withTime, IsBlankPart (payload.get? (partName d.nameText part.key)) := by
  have hblanks {part : DatePart} (hpart : part ∈ datePartsOf withTime) :=
    (h.passesPart hdata hpart).isBlankPart_of_typed (SubmittedDate.typed_of_isBlank hblank part hpart)
  have hday : dateParts[0] ∈ datePartsOf withTime := getElem_dateParts_mem (by decide)
  exact ⟨(hblanks hday).1, fun part hpart => (hblanks hpart).2⟩

/-- The date that the parts make has the numbers that were submitted. -/
theorem exists_moment_entered {text : String}
    (hassembled : (SubmittedDate.of withTime d.nameText data).assembled? = some text) :
    let part (key : String) := payload.get? (partName d.nameText key)
    ∃ moment : DateTime,
      text = (if withTime then moment.canonical else moment.date.canonical) ∧
      Enters (part "day") moment.date.day ∧ Enters (part "month") moment.date.month ∧
      Enters (part "year") moment.date.year ∧
      (withTime = true → Enters (part "hour") moment.time.hour ∧
        Enters (part "minute") moment.time.minute ∧ moment.time.second = 0) := by
  obtain ⟨moment, hmoment, hday, hmonth, ⟨year, hyear, hyear'⟩, htime⟩ :=
    SubmittedDate.exists_moment hassembled
  have hpasses {part : DatePart} (hpart : part ∈ datePartsOf withTime) := h.passesPart hdata hpart
  refine ⟨moment, ?_, ?_, ?_, ?_, ?_⟩
  · rw [hmoment, SubmittedDate.time_isSome]
  · exact (hpasses (getElem_dateParts_mem (i := 0) (by decide))).enters hday
  · exact (hpasses (getElem_dateParts_mem (i := 1) (by decide))).enters hmonth
  · rw [hyear']
    exact (hpasses (getElem_dateParts_mem (i := 2) (by decide))).enters hyear
  · rintro rfl
    obtain ⟨hhour, hminute, hsecond⟩ := htime _ _ rfl
    exact ⟨(hpasses (getElem_timeParts_mem (i := 0) (by decide))).enters hhour,
      (hpasses (getElem_timeParts_mem (i := 1) (by decide))).enters hminute, hsecond⟩

end

end AsksDate

/-- What a page stores of a date in parts is null just when the field is optional and nothing was
submitted for it, and otherwise the canonical text of the date whose numbers were submitted. -/
theorem stored_entered_date {page : Page} {withTime : Bool} {d : ComponentDefinition}
    (h : page.AsksDate withTime d) {payload : FormData} {store store' : Store} {next : String}
    {state : State}
    (hwelcome : ∀ data, page.validateForm payload = .ok data → ¬ d.WelcomesNoDate withTime data)
    (hsubmit : page.submit payload store = (.ok (.proceed next state), store')) :
    ∃ stored value, page.pageState? state = some stored ∧ stored.get? d.nameText = some value ∧
      let part (key : String) := payload.get? (partName d.nameText key)
      (value = .null ↔
        d.isOptional = true ∧ ∀ p ∈ datePartsOf withTime, IsBlankPart (part p.key)) ∧
      (value ≠ .null → ∃ moment : DateTime,
        value = .str (if withTime then moment.canonical else moment.date.canonical) ∧
        Enters (part "day") moment.date.day ∧ Enters (part "month") moment.date.month ∧
        Enters (part "year") moment.date.year ∧
        (withTime = true → Enters (part "hour") moment.time.hour ∧
          Enters (part "minute") moment.time.minute ∧ moment.time.second = 0)) := by
  obtain ⟨answers, hanswers, rfl, -⟩ := submit_proceed hsubmit
  obtain ⟨stored, hstored, hmerges, -⟩ := pageState?_merge page store.held (ordered_answers hanswers)
  obtain ⟨data, hdata, hstate⟩ := answers_eq_ok_iff.mp hanswers
  have hmerged := hmerges d.nameText
  rcases h.answer_cases hdata hstate (hwelcome data hdata) with
    ⟨hanswer, hblank⟩ | ⟨text, hassembled, hanswer⟩
  · rw [hanswer] at hmerged
    refine ⟨stored, .null, hstored, hmerged.trans ?_, ⟨fun _ => ?_, fun _ => rfl⟩, fun hne => ?_⟩
    · exact congrArg some ((mergeValue_eq_iff _ rfl).mpr rfl)
    · exact h.isBlankPart_of_isBlank hdata hblank
    · exact absurd rfl hne
  · rw [hanswer] at hmerged
    obtain ⟨moment, hmoment, hday, hrest⟩ := h.exists_moment_entered hdata hassembled
    refine ⟨stored, .str text, hstored, hmerged.trans ?_, ⟨nofun, fun ⟨_, hblank⟩ => ?_⟩,
      fun _ => ⟨moment, congrArg Json.str hmoment, hday, hrest⟩⟩
    · exact congrArg some ((mergeValue_eq_iff _ rfl).mpr rfl)
    · exact absurd (hblank _ (getElem_dateParts_mem (i := 0) (by decide))) hday.not_isBlankPart

end Page

/-! ## An arrival -/

/-- The day of an arrival, which may be left open. A day that no year has is welcome. -/
def arrivalField : ComponentDefinition :=
  { type := "DatePartsField", name := some "arrival", title := some "Arrival",
    options := { required := some false }, constraints := { allow := some (.str "2023-2-29") } }

/-- A page that asks for it. -/
def arrivalPage : Page :=
  ⟨"/arrival", "", none, [.single (.dateParts false) arrivalField], [], ⟨[], []⟩, {}⟩

theorem asksDate_arrival : arrivalPage.AsksDate false arrivalField where
  compiled := ⟨{ path := "/arrival", components := [arrivalField] }, [], ⟨[], .builtin, "/arrival"⟩,
    ⟨[], []⟩, {}, rfl⟩
  field := .head _
  answer := by decide

/-- An arrival on a 29 February, as it is submitted for a year. -/
def arrivalData (year : Nat) : FormData :=
  [("arrival__day", .str " 29"), ("arrival__month", .ofNat 2), ("arrival__year", .ofNat year)]

/-- In a leap year what is stored is the day that was entered. -/
theorem Page.stored_entered_date_arrival :
    ∃ moment : DateTime, Json.str "2024-02-29" = .str moment.date.canonical ∧
      Enters (some (.str " 29")) moment.date.day ∧ Enters (some (.ofNat 2)) moment.date.month ∧
      Enters (some (.ofNat 2024)) moment.date.year := by
  have hdata : arrivalPage.validateForm (arrivalData 2024) =
      .ok [("arrival__day", .ofNat 29), ("arrival__month", .ofNat 2),
        ("arrival__year", .ofNat 2024)] := by
    decide +kernel
  have hanswers : arrivalPage.answers (arrivalData 2024) = .ok [("arrival", .str "2024-02-29")] := by
    decide +kernel
  have hwelcome : ∀ data, arrivalPage.validateForm (arrivalData 2024) = .ok data →
      ¬ arrivalField.WelcomesNoDate false data := by
    rintro data hvalid ⟨s, hs, hnone, -⟩
    obtain rfl := Except.ok.inj (hdata.symm.trans hvalid)
    obtain rfl : "2024-02-29" = s := Json.str.inj (Eq.trans (by decide +kernel) hs)
    exact absurd hnone (by decide +kernel)
  obtain ⟨stored, value, hstored, hvalue, -, hentered⟩ :=
    Page.stored_entered_date asksDate_arrival hwelcome (submit_inMemory hanswers [])
  obtain rfl : [("arrival", .str "2024-02-29")] = stored :=
    Option.some.inj (Eq.trans (by decide +kernel) hstored)
  obtain rfl : .str "2024-02-29" = value := Option.some.inj hvalue
  obtain ⟨moment, hmoment, hday, hmonth, hyear, -⟩ := hentered nofun
  exact ⟨moment, hmoment, hday, hmonth, hyear⟩

/-- In another year it is the text of what was typed, since that is welcome, and no date. -/
theorem Page.stored_no_date_arrival :
    arrivalPage.AsksDate false arrivalField ∧
      arrivalPage.submit (arrivalData 2023) (.inMemory []) =
        (.ok (.proceed "/summary" [("arrival", .str "2023-2-29")]),
          .inMemory [("arrival", .str "2023-2-29")]) ∧
      ¬ ∃ moment : DateTime, Json.str "2023-2-29" = .str moment.date.canonical ∧
        Enters (some (.str " 29")) moment.date.day ∧ Enters (some (.ofNat 2)) moment.date.month ∧
        Enters (some (.ofNat 2023)) moment.date.year := by
  refine ⟨asksDate_arrival, ?_, ?_⟩
  · have hanswers : arrivalPage.answers (arrivalData 2023) = .ok [("arrival", .str "2023-2-29")] := by
      decide +kernel
    exact Page.submit_inMemory hanswers []
  · rintro ⟨⟨⟨year, month, day, hdate⟩, time⟩, -, hday, hmonth, hyear⟩
    have hday' : (day : Int) = 29 :=
      (hday.eq_truncate (x := .ofNat 29) (by decide +kernel)).trans (by decide +kernel)
    have hmonth' : (month : Int) = 2 :=
      (hmonth.eq_truncate (x := .ofNat 2) (by decide +kernel)).trans (by decide +kernel)
    have hyear' : year = 2023 :=
      (hyear.eq_truncate (x := .ofNat 2023) (by decide +kernel)).trans (by decide +kernel)
    obtain ⟨rfl, rfl⟩ : day = 29 ∧ month = 2 := by omega
    subst hyear'
    exact absurd hdate (by decide)

end Questionnaire
