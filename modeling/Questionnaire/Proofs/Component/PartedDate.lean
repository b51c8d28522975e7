import Questionnaire.Proofs.Calendar.Typed
import Questionnaire.Proofs.Component.Inputs

/-!
# Dates in parts

What valid submitted data holds for the parts of a date are whole numbers in their ranges
(`Leaf.Settled.eq_nat`). When they are all there and make a date, its canonical text is stored; what
is stored otherwise is null or denotes no date (`SubmittedDate.stored_cases`).
-/

namespace Questionnaire

/-! ## Whole numbers in a range -/

namespace Binary64

theorem toUnits_ofNat (n : Nat) (h : n < twoPow 53) :
    (Binary64.ofNat n h).toUnits = (n : Int) * (unitsPerOne : Int) := by
  rw [toUnits, if_neg (by exact Bool.false_ne_true)]
  exact Int.natCast_mul n unitsPerOne

/-- A whole number between two natural numbers is one. -/
theorem truncate_between {x : Binary64} (hwhole : x.isWhole = true) {low high : Nat}
    (hlow : low < twoPow 53) (hhigh : high < twoPow 53) (hle : x.lt (.ofNat low hlow) = false)
    (hge : (Binary64.ofNat high hhigh).lt x = false) :
    ∃ n : Nat, x.truncate = n ∧ low ≤ n ∧ n ≤ high := by
  have hunits := units_eq_of_isWhole hwhole
  have hone := unitsPerOne_pos
  rw [natAbs_truncate] at hunits
  simp only [lt, decide_eq_false_iff_not, Int.not_lt, toUnits_ofNat] at hle hge
  rw [toUnits, ← hunits] at hle hge
  rw [truncate_def]
  generalize x.units / unitsPerOne = whole at hle hge ⊢
  generalize unitsPerOne = scale at hone hle hge
  have hcancel : ∀ {a b : Nat}, (a : Int) * (scale : Int) ≤ ((b * scale : Nat) : Int) → a ≤ b := by
    intro a b h
    rw [← Int.natCast_mul, Int.ofNat_le] at h
    exact Nat.le_of_mul_le_mul_right h hone
  cases hsign : x.negative with
  | false =>
      rw [hsign, if_neg (by exact Bool.false_ne_true)] at hle hge
      refine ⟨whole, rfl, hcancel hle, ?_⟩
      rw [Int.natCast_mul] at hge
      exact Int.ofNat_le.mp (Int.le_of_mul_le_mul_right hge (Int.natCast_pos.mpr hone))
  | true =>
      -- Nothing negative lies above the lower bound, so the number is zero.
      rw [hsign, if_pos rfl] at hle hge
      have hzero : whole * scale = 0 := by
        have hlowPos : (0 : Int) ≤ (low : Int) * (scale : Int) :=
          Int.mul_nonneg (Int.natCast_nonneg _) (Int.natCast_nonneg _)
        omega
      have hwholeZero : whole = 0 := (Nat.mul_eq_zero.mp hzero).resolve_right (by omega)
      have hlowZero : low * scale = 0 := by
        rw [hzero] at hle
        rw [← Int.natCast_mul] at hle
        omega
      refine ⟨0, by rw [hwholeZero]; rfl, ?_, Nat.zero_le _⟩
      exact Nat.le_of_eq ((Nat.mul_eq_zero.mp hlowZero).resolve_right (by omega))

end Binary64

/-- A number that is asked to be whole and between two natural numbers is kept as one. -/
theorem Leaf.Settled.eq_nat {c : NumberConstraints} {low high : Nat} {hlow : low < twoPow 53}
    {hhigh : high < twoPow 53} (hwhole : c.whole = true)
    (hmin : c.min = some ↑(Binary64.ofNat low hlow))
    (hmax : c.max = some ↑(Binary64.ofNat high hhigh)) {value : Json}
    (h : (Leaf.number c).Settled value) :
    ∃ (n : Nat) (hn : IsWord n), value = .num (.int n hn) ∧ low ≤ n ∧ n ≤ high := by
  obtain ⟨x, rfl, hfaults⟩ := h.eq_num
  obtain ⟨hfraction, hsmall, hlarge⟩ := Leaf.numberFaults_eq_nil hfaults
  obtain ⟨n, htruncate, hle, hge⟩ :=
    Binary64.truncate_between (hfraction hwhole) hlow hhigh (hsmall _ hmin) (hlarge _ hmax)
  have hkept : Leaf.KeptWhole x := by
    refine ⟨hfraction hwhole, ?_⟩
    rw [htruncate, Int.natAbs_natCast]
    exact Nat.lt_of_le_of_lt hge (Nat.lt_trans hhigh (by decide))
  have hword := Leaf.isWord_of_natAbs_lt hkept.2
  rw [Leaf.numberValue_of_keptWhole hkept]
  simp only [htruncate] at hword ⊢
  exact ⟨n, hword, rfl, hle, hge⟩

/-! ## Dates as answers -/

/-- What is asked of a date or a date-time. -/
def dateLeaf (withTime : Bool) : Leaf :=
  if withTime then .dateTime else .date

theorem dateBase_eq_leaf (withTime : Bool) : dateBase withTime = .leaf (dateLeaf withTime) {} := by
  cases withTime <;> rfl

/-- A date is taken for the canonical text of what it denotes. -/
theorem check_dateLeaf (withTime allowsEmpty : Bool) (label : String) (value : Json) :
    (dateLeaf withTime).check allowsEmpty label value =
      match value.str?.bind (canonicalDate? withTime) with
      | some text => .pass (.str text)
      | none => .fail label (dateLeaf withTime).mismatch := by
  cases hvalue : value.str? with
  | none => cases withTime <;> simp [dateLeaf, Leaf.check, Leaf.mismatch, hvalue]
  | some s =>
      cases withTime with
      | false =>
          cases hread : Date.ofText? s <;>
            simp [dateLeaf, Leaf.check, Leaf.mismatch, canonicalDate?, hvalue, hread]
      | true =>
          cases hread : DateTime.ofText? s <;>
            simp [dateLeaf, Leaf.check, Leaf.mismatch, canonicalDate?, hvalue, hread]

theorem settled_of_canonicalDate? {withTime : Bool} {s text : String}
    (h : canonicalDate? withTime s = some text) : (dateLeaf withTime).Settled (.str text) := by
  cases withTime with
  | false =>
      obtain ⟨date, hdate, rfl⟩ := Option.map_eq_some_iff.mp h
      exact Leaf.settled_date (Date.inAnswerRange_of_ofText? hdate)
  | true =>
      obtain ⟨moment, hmoment, rfl⟩ := Option.map_eq_some_iff.mp h
      exact Leaf.settled_dateTime (DateTime.inAnswerRange_of_ofText? hmoment)

theorem check_of_canonicalDate?_none {withTime : Bool} {s : String}
    (h : canonicalDate? withTime s = none) (allowsEmpty : Bool) (label : String) :
    ((dateLeaf withTime).check allowsEmpty label (.str s)).failures ≠ [] := by
  rw [check_dateLeaf, Json.str?, Option.bind_some, h]
  exact List.cons_ne_nil _ _

/-! ## The parts of a date -/

theorem getElem_dateParts_mem {withTime : Bool} {i : Nat} (hi : i < dateParts.length) :
    dateParts[i] ∈ datePartsOf withTime := by
  cases withTime with
  | false => exact List.getElem_mem hi
  | true => exact List.mem_append_left _ (List.getElem_mem hi)

theorem getElem_timeParts_mem {i : Nat} (hi : i < timeParts.length) :
    timeParts[i] ∈ datePartsOf true :=
  List.mem_append_right _ (List.getElem_mem hi)

/-- What data holds for a part of a date: nothing, or a number in the range of the part. -/
structure HoldsPart (low high : Nat) (value : Option Json) : Prop where
  range : ∀ n ∈ partNumber? value, low ≤ n ∧ n ≤ high
  typed : partTyped value = String.ofList (typedPart (partNumber? value))
  number : ∀ n ∈ partNumber? value, ∃ hn, value = some (.num (.int n hn))

theorem holdsPart_of_holds {part : DatePart} {low high : Nat} (hlow : low < twoPow 53)
    (hhigh : high < twoPow 53) (hmin : part.min = .ofNat low hlow)
    (hmax : part.max = .ofNat high hhigh) (hword : high < word32Limit) {name : String}
    {a : Attributes} {isOptional : Bool} {data : FormData}
    (h : Input.Holds ⟨name, .leaf part.leaf a, isOptional⟩ data) :
    HoldsPart low high (data.get? name) := by
  cases hvalue : data.get? name with
  | none => exact ⟨nofun, rfl, nofun⟩
  | some value =>
      rcases h value hvalue with rfl | hsettled
      · exact ⟨nofun, rfl, nofun⟩
      · cases hsettled with
        | one hleaf _ =>
            obtain ⟨n, hn, rfl, hle, hge⟩ :=
              hleaf.eq_nat rfl (congrArg (some <| Float64.number <| .finite ·) hmin)
                (congrArg (some <| Float64.number <| .finite ·) hmax)
            have hnumber : partNumber? (some (.num (.int n hn))) = some n := by
              have hless : n < word32Limit := Nat.lt_of_le_of_lt hge hword
              simp [partNumber?, Number.nat?, hless, Option.filter]
            refine ⟨?_, ?_, ?_⟩
            · rw [hnumber]
              rintro _ ⟨rfl⟩
              exact ⟨hle, hge⟩
            · rw [hnumber, typedPart, Option.map_some, Option.getD_some, String.ofList_toList]
              rfl
            · rw [hnumber]
              rintro _ ⟨rfl⟩
              exact ⟨hn, rfl⟩

namespace SubmittedDate

/-- The parts of a date hold numbers in their ranges, or nothing. -/
structure Holds (parts : SubmittedDate) : Prop where
  day : HoldsPart 1 31 parts.day
  month : HoldsPart 1 12 parts.month
  year : HoldsPart 1000 3000 parts.year
  time : ∀ hour minute, parts.time = some (hour, minute) →
    HoldsPart 0 23 hour ∧ HoldsPart 0 59 minute

theorem holds_of {d : ComponentDefinition} {withTime : Bool} {data : FormData}
    (h : ∀ input ∈ (Component.single (.dateParts withTime) d).inputs, input.Holds data) :
    (SubmittedDate.of withTime d.nameText data).Holds := by
  simp only [Component.inputs, List.forall_mem_map] at h
  refine ⟨?_, ?_, ?_, ?_⟩
  · exact holdsPart_of_holds (by decide) (by decide) rfl rfl (by decide)
      (h _ (getElem_dateParts_mem (i := 0) (by decide)))
  · exact holdsPart_of_holds (by decide) (by decide) rfl rfl (by decide)
      (h _ (getElem_dateParts_mem (i := 1) (by decide)))
  · exact holdsPart_of_holds (by decide) (by decide) rfl rfl (by decide)
      (h _ (getElem_dateParts_mem (i := 2) (by decide)))
  · intro hour minute hparts
    cases withTime with
    | false => cases hparts
    | true =>
        obtain ⟨rfl, rfl⟩ := Prod.mk.inj (Option.some.inj hparts)
        constructor
        · exact holdsPart_of_holds (by decide) (by decide) rfl rfl (by decide)
            (h _ (getElem_timeParts_mem (i := 0) (by decide)))
        · exact holdsPart_of_holds (by decide) (by decide) rfl rfl (by decide)
            (h _ (getElem_timeParts_mem (i := 1) (by decide)))

theorem typedDate_eq (year month day : Option Nat) :
    String.ofList (typedDate year month day []) =
      String.ofList (typedPart year) ++ "-" ++ String.ofList (typedPart month) ++ "-" ++
        String.ofList (typedPart day) := by
  rw [← String.toList_inj]
  simp [typedDate]

theorem typedTime_eq (year month day hour minute : Option Nat) :
    String.ofList (typedDate year month day (typedTime hour minute)) =
      String.ofList (typedPart year) ++ "-" ++ String.ofList (typedPart month) ++ "-" ++
        String.ofList (typedPart day) ++ "T" ++ String.ofList (typedPart hour) ++ ":" ++
          String.ofList (typedPart minute) := by
  rw [← String.toList_inj]
  simp [typedDate, typedTime]

/-- The order in which the numbers of a date are looked at makes no difference. -/
theorem assembled?_eq_bind (parts : SubmittedDate) :
    parts.assembled? =
      ((partNumber? parts.year).bind fun year => (partNumber? parts.month).bind fun month =>
        (partNumber? parts.day).bind fun day => Date.of? year month day).bind fun date =>
          parts.time?.bind fun time =>
            some (if parts.time.isSome then DateTime.canonical ⟨date, time⟩ else date.canonical) := by
  unfold assembled?
  cases partNumber? parts.day <;> cases partNumber? parts.month <;>
    cases partNumber? parts.year <;> rfl

/-- What is assembled of the parts is the date that is typed with them. -/
theorem Holds.assembled?_eq {parts : SubmittedDate} (h : parts.Holds) :
    parts.assembled? = canonicalDate? parts.time.isSome parts.typed := by
  have hyear : ∀ n ∈ partNumber? parts.year, 1000 ≤ n ∧ n ≤ 9999 := fun n hn => by
    have := h.year.range n hn
    omega
  rw [assembled?_eq_bind]
  unfold typed time?
  rw [h.day.typed, h.month.typed, h.year.typed]
  cases htime : parts.time with
  | none =>
      have hdate := Date.ofText?_typed hyear h.month.range h.day.range
      rw [typedDate_eq] at hdate
      show _ = (Date.ofText? _).map Date.canonical
      rw [hdate, Option.map_eq_bind]
      rfl
  | some time =>
      obtain ⟨hour, minute⟩ := time
      obtain ⟨hhour, hminute⟩ := h.time hour minute htime
      have hmoment := DateTime.ofText?_typed hhour.range hminute.range hyear h.month.range
        h.day.range
      rw [typedTime_eq] at hmoment
      simp only [canonicalDate?, Option.isSome_some, if_true, hhour.typed, hminute.typed, hmoment,
        Option.map_eq_bind, Option.bind_eq_bind, Option.bind_assoc]
      rfl

theorem time_isSome (withTime : Bool) (name : String) (data : FormData) :
    (SubmittedDate.of withTime name data).time.isSome = withTime := by
  cases withTime <;> rfl

/-- What is stored of a date in parts is null, the canonical text of a date, or no date. -/
theorem Holds.stored_cases {withTime : Bool} {name : String} {data : FormData}
    (h : (SubmittedDate.of withTime name data).Holds) :
    (SubmittedDate.of withTime name data).stored = .null ∨
      (∃ text, (SubmittedDate.of withTime name data).assembled? = some text ∧
        (SubmittedDate.of withTime name data).stored = .str text ∧
        (dateLeaf withTime).Settled (.str text)) ∨
      ∀ allowsEmpty label, ((dateLeaf withTime).check allowsEmpty label
        (SubmittedDate.of withTime name data).stored).failures ≠ [] := by
  have hassembled := h.assembled?_eq
  rw [time_isSome] at hassembled
  unfold stored
  cases hcanonical : canonicalDate? withTime (SubmittedDate.of withTime name data).typed with
  | some text =>
      rw [hcanonical] at hassembled
      rw [hassembled]
      exact Or.inr (Or.inl ⟨text, rfl, rfl, settled_of_canonicalDate? hcanonical⟩)
  | none =>
      rw [hcanonical] at hassembled
      rw [hassembled]
      dsimp only
      split
      · exact Or.inl rfl
      · exact Or.inr (Or.inr (check_of_canonicalDate?_none hcanonical))

end SubmittedDate

/-! ## The parts written again -/

/-- The parts of a moment, each with its number. -/
def partsOfMoment (withTime : Bool) (name : String) (moment : DateTime) : Fields :=
  ((datePartsOf withTime).zip moment.numbers).map fun (part, n) =>
    (partName name part.key, .str (toString n))

theorem nodup_partsOfMoment (withTime : Bool) (name : String) (moment : DateTime) :
    ((partsOfMoment withTime name moment).map (·.1)).Nodup := by
  have hlength : (datePartsOf withTime).length ≤ moment.numbers.length := by
    cases withTime
    · exact Nat.le.step (Nat.le.step Nat.le.refl)
    · exact Nat.le.refl
  have hnames : (partsOfMoment withTime name moment).map (·.1) =
      ((datePartsOf withTime).map DatePart.key).map (partName name) := by
    conv => rhs; rw [← List.map_fst_zip hlength, List.map_map, List.map_map]
    rw [partsOfMoment, List.map_map]
    rfl
  rw [hnames]
  exact (nodup_datePartsOf withTime).map (partName_injective name)

theorem datePartsForm_of_moment {withTime : Bool} {name text : String} {state : State}
    {moment : DateTime} (hstate : state.get? name = some (.str text))
    (hmoment : (if withTime then DateTime.ofText? text
      else (Date.ofText? text).map Date.atMidnight) = some moment) :
    datePartsForm withTime name state = Fields.ofList (partsOfMoment withTime name moment) := by
  have htext : (state.get? name).bind Json.str? = some text := by
    rw [hstate]
    rfl
  unfold datePartsForm
  rw [htext]
  simp only [hmoment]
  rfl

theorem get?_partsOfMoment {withTime : Bool} {name : String} {moment : DateTime} {i n : Nat}
    {part : DatePart} (hpart : (datePartsOf withTime)[i]? = some part)
    (hn : moment.numbers[i]? = some n) :
    (Fields.ofList (partsOfMoment withTime name moment)).get? (partName name part.key) =
      some (.str (toString n)) := by
  refine Fields.get?_ofList_of_mem (nodup_partsOfMoment withTime name moment) ?_
  refine List.mem_map.mpr ⟨(part, n), List.mem_iff_getElem?.mpr ⟨i, ?_⟩, rfl⟩
  rw [List.getElem?_zip_eq_some]
  exact ⟨hpart, hn⟩

theorem Date.eq_of_of? {year : Int} {month day : Nat} {date : Date}
    (h : Date.of? year month day = some date) :
    date.year = year ∧ date.month = month ∧ date.day = day := by
  unfold Date.of? at h
  split at h
  · obtain rfl := Option.some.inj h
    exact ⟨rfl, rfl, rfl⟩
  · cases h

theorem Time.eq_of_of? {hour minute second : Nat} {time : Time}
    (h : Time.of? hour minute second = some time) :
    time.hour = hour ∧ time.minute = minute ∧ time.second = second := by
  unfold Time.of? at h
  split at h
  · obtain rfl := Option.some.inj h
    exact ⟨rfl, rfl, rfl⟩
  · exact nomatch h

namespace SubmittedDate

/-- A date that is assembled has the numbers of the parts. -/
theorem exists_moment {parts : SubmittedDate} {text : String} (h : parts.assembled? = some text) :
    ∃ moment : DateTime,
      text = (if parts.time.isSome then moment.canonical else moment.date.canonical) ∧
      partNumber? parts.day = some moment.date.day ∧
      partNumber? parts.month = some moment.date.month ∧
      (∃ year : Nat, partNumber? parts.year = some year ∧ moment.date.year = year) ∧
      ∀ hour minute, parts.time = some (hour, minute) →
        partNumber? hour = some moment.time.hour ∧ partNumber? minute = some moment.time.minute ∧
          moment.time.second = 0 := by
  obtain ⟨day, hday, h⟩ := Option.bind_eq_some_iff.mp h
  obtain ⟨month, hmonth, h⟩ := Option.bind_eq_some_iff.mp h
  obtain ⟨year, hyear, h⟩ := Option.bind_eq_some_iff.mp h
  obtain ⟨date, hdate, h⟩ := Option.bind_eq_some_iff.mp h
  obtain ⟨time, htime, h⟩ := Option.bind_eq_some_iff.mp h
  obtain ⟨hyear', hmonth', hday'⟩ := Date.eq_of_of? hdate
  refine ⟨⟨date, time⟩, (Option.some.inj h).symm, hday'.symm ▸ hday, hmonth'.symm ▸ hmonth,
    ⟨year, hyear, hyear'⟩, ?_⟩
  intro hour minute hparts
  rw [time?, hparts] at htime
  obtain ⟨hours, hhour, htime⟩ := Option.bind_eq_some_iff.mp htime
  obtain ⟨minutes, hminute, htime⟩ := Option.bind_eq_some_iff.mp htime
  obtain ⟨hhour', hminute', hsecond⟩ := Time.eq_of_of? htime
  exact ⟨hhour'.symm ▸ hhour, hminute'.symm ▸ hminute, hsecond⟩

end SubmittedDate

/-- The text assembled of the parts of a date writes the numbers that the parts hold. -/
theorem datePartsForm_of_assembled {withTime : Bool} {name : String} {data : FormData}
    (h : (SubmittedDate.of withTime name data).Holds) {text : String}
    (hassembled : (SubmittedDate.of withTime name data).assembled? = some text) {state : State}
    (hstate : state.get? name = some (.str text)) :
    ∀ part ∈ datePartsOf withTime, ∃ n, partNumber? (data.get? (partName name part.key)) = some n ∧
      (datePartsForm withTime name state).get? (partName name part.key) =
        some (.str (toString n)) := by
  obtain ⟨moment, htext, hday, hmonth, ⟨year, hyear, hyear'⟩, htime⟩ :=
    SubmittedDate.exists_moment hassembled
  have hnumber : moment.date.year.natAbs = year := by
    rw [hyear']
    rfl
  have hrange : moment.date.inAnswerRange = true := by
    have := h.year.range year hyear
    simp only [Date.inAnswerRange, Bool.and_eq_true, decide_eq_true_eq]
    omega
  rw [SubmittedDate.time_isSome] at htext
  rw [htext] at hstate
  intro part hpart
  cases withTime with
  | false =>
      have hmoment : (Date.ofText? moment.date.canonical).map Date.atMidnight =
          some moment.date.atMidnight := by
        rw [Date.ofText?_canonical hrange]
        rfl
      have hform : datePartsForm false name state =
          Fields.ofList (partsOfMoment false name moment.date.atMidnight) :=
        datePartsForm_of_moment hstate hmoment
      rw [hform]
      simp only [datePartsOf, dateParts, Bool.false_eq_true, if_false, List.mem_cons,
        List.not_mem_nil, or_false] at hpart
      rcases hpart with rfl | rfl | rfl
      · exact ⟨_, hday, get?_partsOfMoment (i := 0) rfl rfl⟩
      · exact ⟨_, hmonth, get?_partsOfMoment (i := 1) rfl rfl⟩
      · exact ⟨_, hyear, get?_partsOfMoment (i := 2) rfl (congrArg some hnumber)⟩
  | true =>
      obtain ⟨hhour, hminute, -⟩ := htime _ _ rfl
      have hmoment : (if true = true then DateTime.ofText? moment.canonical
          else (Date.ofText? moment.canonical).map Date.atMidnight) = some moment := by
        rw [if_pos rfl]
        exact DateTime.ofText?_canonical hrange
      have hform : datePartsForm true name state =
          Fields.ofList (partsOfMoment true name moment) :=
        datePartsForm_of_moment hstate hmoment
      rw [hform]
      simp only [datePartsOf, dateParts, timeParts, if_true, List.cons_append, List.nil_append,
        List.mem_cons, List.not_mem_nil, or_false] at hpart
      rcases hpart with rfl | rfl | rfl | rfl | rfl
      · exact ⟨_, hday, get?_partsOfMoment (i := 0) rfl rfl⟩
      · exact ⟨_, hmonth, get?_partsOfMoment (i := 1) rfl rfl⟩
      · exact ⟨_, hyear, get?_partsOfMoment (i := 2) rfl (congrArg some hnumber)⟩
      · exact ⟨_, hhour, get?_partsOfMoment (i := 3) rfl rfl⟩
      · exact ⟨_, hminute, get?_partsOfMoment (i := 4) rfl rfl⟩

end Questionnaire
