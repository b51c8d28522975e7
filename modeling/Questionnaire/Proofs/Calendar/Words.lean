import Questionnaire.Proofs.Calendar.Typed

/-!
# Dates in words

A date is shown in words, its month by name. That text denotes the date again
(`Date.ofText?_display`): no layout that is tried before fits it, because a space follows its first
number. With a time of day behind it the text fits no layout at all
(`DateTime.ofText?_display_eq_none`). Either way what is shown of a stored text is shown again as it
is, and the texts of dates and of moments, in whatever layout they are written, denote what they
were written for (`date_texts_read_back`).
-/

namespace Questionnaire

/-! ## Names of months -/

theorem dropWord?_self (word rest : List Char) : dropWord? word (word ++ rest) = some rest := by
  induction word with
  | nil => rfl
  | cons w word ih => simpa [dropWord?] using ih

/-- Of a text that is long enough a word looks at no more than its own length. -/
theorem dropWord?_append {word cs : List Char} (h : word.length ≤ cs.length) (rest : List Char) :
    dropWord? word (cs ++ rest) = (dropWord? word cs).map (· ++ rest) := by
  induction word generalizing cs with
  | nil => rfl
  | cons w word ih =>
      cases cs with
      | nil => exact absurd h (by simp)
      | cons c cs =>
          simp only [List.cons_append, dropWord?]
          split
          · exact ih (Nat.le_of_succ_le_succ h)
          · rfl

/-- The name of a month is read as that month. -/
theorem readMonthName?_monthName {i : Nat} (hi : i < 12) (rest : List Char) :
    readMonthName? ((monthName (i + 1)).toList ++ rest) = some (i + 1, rest) := by
  have hlength : ∀ i < 12, 3 ≤ (monthName (i + 1)).toList.length := by decide
  have hearlier : ∀ i < 12, ∀ j < i,
      dropWord? ((monthName (j + 1)).toList.take 3) (monthName (i + 1)).toList = none := by decide
  have hsplit : List.range 12 = List.range i ++ i :: List.range' (i + 1) (11 - i) := by
    have happend := List.range'_append_1 (s := 0) (m := i) (n := 11 - i + 1)
    rw [Nat.zero_add, show i + (11 - i + 1) = 12 by omega, List.range'_succ] at happend
    rw [List.range_eq_range', List.range_eq_range', happend]
  refine List.findSome?_eq_some_iff.mpr ⟨_, i, _, hsplit, ?_, fun j hj => ?_⟩
  · have hshort := dropWord?_self ((monthName (i + 1)).toList.take 3)
      ((monthName (i + 1)).toList.drop 3 ++ rest)
    rw [← List.append_assoc, List.take_append_drop] at hshort
    simp only [hshort, Option.map_some, dropWord?_self, Option.getD_some]
  · -- An earlier month has other letters in front.
    have htake : ((monthName (j + 1)).toList.take 3).length ≤
        (monthName (i + 1)).toList.length := by
      have hshort := hlength i hi
      rw [List.length_take]
      omega
    simp only [dropWord?_append htake, hearlier i hi j (List.mem_range.mp hj), Option.map_none]

/-! ## Dates in words -/

/-- Whether the first number of a layout is followed by a mark other than a space. -/
def Layout.marksFirst : Layout → Bool
  | .year :: .mark c :: _ | .day :: .mark c :: _ => c != ' '
  | _ => false

/-- A date in words, and what follows it. -/
def wordDate (m : MomentParts) (rest : List Char) : List Char :=
  (toString m.day).toList ++
    ' ' :: ((monthName m.month).toList ++ ' ' :: (yearText m.year ++ rest))

theorem flatMap_wordLayout (m : MomentParts) (more : Layout) :
    (wordLayout ++ more).flatMap (LayoutPart.write m) =
      wordDate m (more.flatMap (LayoutPart.write m)) := by
  simp [wordLayout, LayoutPart.write, wordDate]

theorem endsDigits_space (rest : List Char) : EndsDigits (' ' :: rest) := by
  intro c hc
  obtain rfl := Option.some.inj hc
  rfl

theorem LayoutPart.read?_monthName {parts : MomentParts} {cs rest : List Char} {n : Nat}
    (h : readMonthName? cs = some (n, rest)) :
    LayoutPart.read? .monthName parts cs = some ({ parts with month := n }, rest) :=
  congrArg (Option.map _) h

theorem LayoutPart.read?_space {rest : List Char} (h : ∀ c ∈ rest.head?, Text.isBlank c = false)
    (parts : MomentParts) : LayoutPart.read? .space parts (' ' :: rest) = some (parts, rest) := by
  have hblank : Text.isBlank ' ' = true := by decide
  rw [LayoutPart.read?, Text.trimFront, List.dropWhile_cons_of_pos hblank]
  exact congrArg (fun cs => some (parts, cs)) (Text.trimFront_of_head h)

theorem not_blank_monthName {i : Nat} (hi : i < 12) (rest : List Char) :
    ∀ c ∈ ((monthName (i + 1)).toList ++ rest).head?, Text.isBlank c = false := by
  have hletter : ∀ i < 12, (monthName (i + 1)).toList.head?.any (!Text.isBlank ·) = true := by
    decide
  have hfirst := hletter i hi
  cases hname : (monthName (i + 1)).toList with
  | nil =>
      rw [hname] at hfirst
      exact nomatch hfirst
  | cons first letters =>
      intro c hc
      obtain rfl := Option.some.inj hc
      simpa [hname] using hfirst

section

variable {m : MomentParts} (hm : m.InRange)

include hm

theorem yearText_eq_paddedTo : yearText m.year = paddedTo 4 m.year.natAbs := by
  have hlow := hm.year_low
  have hhigh := hm.year_high
  rw [yearText, if_neg (by omega), if_neg (by omega)]

theorem length_day_le : (toString m.day).toList.length ≤ 2 :=
  (length_toString_le_iff (by decide)).mpr (Nat.lt_of_le_of_lt hm.day_high (by decide))

theorem readDay?_words (after : List Char) :
    readPair? 1 31 ((toString m.day).toList ++ ' ' :: after) = some (m.day, ' ' :: after) := by
  rw [readPair?_append (toString_toList_ne_nil _) isDigit_of_mem_toString (length_day_le hm)
    (Or.inr (endsDigits_space after)), digitsValue_toString, if_pos ⟨hm.day_low, hm.day_high⟩]

/-- A date in words is read by the layout it is written in. -/
theorem readFrom?_wordDate (more : Layout) (parts : MomentParts) (rest : List Char) :
    Layout.readFrom? (wordLayout ++ more) parts (wordDate m rest) =
      Layout.readFrom? more { parts with year := m.year, month := m.month, day := m.day } rest := by
  obtain ⟨i, hi, hmonth⟩ : ∃ i < 12, m.month = i + 1 :=
    ⟨m.month - 1, by have := hm.month_high; omega, by have := hm.month_low; omega⟩
  have hname := readMonthName?_monthName hi (' ' :: (yearText m.year ++ rest))
  have hletter := not_blank_monthName hi (' ' :: (yearText m.year ++ rest))
  rw [← hmonth] at hname hletter
  have hdigit : ∀ c ∈ (yearText m.year ++ rest).head?, Text.isBlank c = false := by
    rw [yearText_eq_paddedTo hm]
    exact not_blank_digits (paddedTo_ne_nil 4 _) isDigit_of_mem_paddedTo rest
  refine (Layout.readFrom?_of_read (LayoutPart.read?_day (readDay?_words hm _))).trans ?_
  refine (Layout.readFrom?_of_read (LayoutPart.read?_space hletter _)).trans ?_
  refine (Layout.readFrom?_of_read (LayoutPart.read?_monthName hname)).trans ?_
  refine (Layout.readFrom?_of_read (LayoutPart.read?_space hdigit _)).trans ?_
  exact Layout.readFrom?_of_read
    (LayoutPart.read?_year (readYear?_yearText hm.year_low hm.year_high rest))

/-- A date in words does not fit a layout with a mark behind the first number. -/
theorem read?_wordDate_eq_none {layout : Layout} (h : layout.marksFirst = true)
    (rest : List Char) : layout.read? (wordDate m rest) = none := by
  have hdigits : ∀ c ∈ (toString m.day).toList, c.isDigit = true := isDigit_of_mem_toString
  have hne : (toString m.day).toList ≠ [] := toString_toList_ne_nil _
  have hends := endsDigits_space ((monthName m.month).toList ++ ' ' :: (yearText m.year ++ rest))
  have hspace {c : Char} (hc : (c != ' ') = true) (parts : MomentParts) (after : List Char) :
      LayoutPart.read? (.mark c) parts (' ' :: after) = none := by
    refine LayoutPart.read?_mark_none (fun d hd heq => ?_) parts
    obtain rfl := (Option.some.inj hd).trans heq
    exact absurd hc (by decide)
  unfold Layout.marksFirst at h
  split at h
  · next c more =>
    have hyear := readYear?_append hne hdigits (Nat.le_trans (length_day_le hm) (by decide))
      (Or.inr hends)
    refine (Layout.readFrom?_of_read (LayoutPart.read?_year hyear)).trans ?_
    exact Layout.readFrom?_of_read_none (hspace h _ _)
  · next c more =>
    refine (Layout.readFrom?_of_read (LayoutPart.read?_day (readDay?_words hm _))).trans ?_
    exact Layout.readFrom?_of_read_none (hspace h _ _)
  · cases h

end

/-- A date in words with digits at its end has nothing to trim. -/
theorem trimmed_wordDate {m : MomentParts} (front : List Char) {digits rest : List Char}
    (hne : digits ≠ []) (hdigits : ∀ c ∈ digits, c.isDigit = true)
    (hrest : yearText m.year ++ rest = front ++ digits) :
    Text.trimmed (wordDate m rest) = wordDate m rest := by
  have hends : wordDate m rest = (toString m.day).toList ++
      (' ' :: ((monthName m.month).toList ++ ' ' :: front)) ++ digits := by
    simp [wordDate, hrest]
  rw [hends]
  exact trimmed_digits (toString_toList_ne_nil _) isDigit_of_mem_toString hne hdigits

/-- What is shown of a date denotes the date. -/
theorem Date.ofText?_display {date : Date} (h : date.inAnswerRange = true) :
    Date.ofText? date.display = some date := by
  have hm : date.atMidnight.parts.InRange := DateTime.inRange_parts h
  have htext : date.display.toList = wordDate date.atMidnight.parts [] := by
    rw [display, Layout.write, String.toList_ofList, ← List.append_nil wordLayout,
      flatMap_wordLayout, List.flatMap_nil]
  have htrimmed : Text.trimmed date.display.toList = wordDate date.atMidnight.parts [] := by
    rw [htext]
    exact trimmed_wordDate [] (paddedTo_ne_nil 4 _) isDigit_of_mem_paddedTo
      (by rw [yearText_eq_paddedTo hm, List.append_nil, List.nil_append])
  have hcanonical : dateLayout.read? (wordDate date.atMidnight.parts []) = none :=
    read?_wordDate_eq_none hm rfl []
  have hslash : slashLayout.read? (wordDate date.atMidnight.parts []) = none :=
    read?_wordDate_eq_none hm rfl []
  have hword : (wordLayout.read? (wordDate date.atMidnight.parts [])).bind MomentParts.date? =
      some date := by
    rw [Layout.read?, ← List.append_nil wordLayout, readFrom?_wordDate hm]
    exact date?_parts date.atMidnight
  simp [ofText?, dateLayouts, htrimmed, hcanonical, hslash, hword, h]

/-- What is shown of a moment denotes no moment. -/
theorem DateTime.ofText?_display_eq_none {moment : DateTime}
    (h : moment.date.inAnswerRange = true) : DateTime.ofText? moment.display = none := by
  have hm : moment.parts.InRange := DateTime.inRange_parts h
  have htext : moment.display.toList = wordDate moment.parts
      (' ' :: (paddedTo 2 moment.time.hour ++ ':' :: paddedTo 2 moment.time.minute)) := by
    rw [display, Layout.write, String.toList_ofList, wordTimeLayout, List.append_assoc,
      flatMap_wordLayout]
    simp [minuteLayout, LayoutPart.write, DateTime.parts]
  have htrimmed : Text.trimmed moment.display.toList = moment.display.toList := by
    rw [htext]
    exact trimmed_wordDate
      (yearText moment.parts.year ++ ' ' :: (paddedTo 2 moment.time.hour ++ [':']))
      (paddedTo_ne_nil 2 moment.time.minute) isDigit_of_mem_paddedTo (by simp)
  have hlayouts : ∀ layout ∈ dateTimeLayouts, layout.marksFirst = true := by decide
  have hnone : (dateTimeLayouts.findSome? fun layout =>
      (layout.read? (Text.trimmed moment.display.toList)).bind MomentParts.dateTime?) = none := by
    rw [List.findSome?_eq_none_iff]
    intro layout hlayout
    rw [htrimmed, htext, read?_wordDate_eq_none hm (hlayouts layout hlayout)]
    rfl
  rw [ofText?, hnone]
  rfl

/-! ## Stored texts as they are shown -/

/-- What is shown of a stored text is shown again as it is. -/
theorem displayStored_displayStored (withTime : Bool) (s : String) :
    displayStored withTime (displayStored withTime s) = displayStored withTime s := by
  cases withTime with
  | true =>
      cases hread : DateTime.ofText? s with
      | none => simp [displayStored, hread]
      | some moment =>
          have hrange := DateTime.inAnswerRange_of_ofText? hread
          simp [displayStored, hread, DateTime.ofText?_display_eq_none hrange]
  | false =>
      cases hread : Date.ofText? s with
      | none => simp [displayStored, hread]
      | some date =>
          have hrange := Date.inAnswerRange_of_ofText? hread
          simp [displayStored, hread, Date.ofText?_display hrange]

/-- The texts of dates and of moments with a year of four digits read back: a date from its canonical
text and from the words it is shown in, a moment from its canonical text and from what an input
shows, a sixtieth second included. Whatever text is read, the year has four digits and the canonical
text of what was read is read as the same. Showing what is shown changes nothing. -/
theorem date_texts_read_back :
    (∀ date : Date, 1000 ≤ date.year → date.year ≤ 9999 →
      Date.ofText? date.canonical = some date ∧ Date.ofText? date.display = some date) ∧
    (∀ moment : DateTime, 1000 ≤ moment.date.year → moment.date.year ≤ 9999 →
      DateTime.ofText? moment.canonical = some moment ∧
        DateTime.ofText? moment.inputText = some moment) ∧
    (∀ s date, Date.ofText? s = some date →
      1000 ≤ date.year ∧ date.year ≤ 9999 ∧ Date.ofText? date.canonical = some date) ∧
    (∀ s moment, DateTime.ofText? s = some moment →
      1000 ≤ moment.date.year ∧ moment.date.year ≤ 9999 ∧
        DateTime.ofText? moment.canonical = some moment) ∧
    ∀ withTime s, displayStored withTime (displayStored withTime s) = displayStored withTime s := by
  have hrange (date : Date) :
      date.inAnswerRange = true ↔ 1000 ≤ date.year ∧ date.year ≤ 9999 := by
    simp [Date.inAnswerRange]
  refine ⟨fun date hlow hhigh => ?_, fun moment hlow hhigh => ?_, fun s date hread => ?_,
    fun s moment hread => ?_, displayStored_displayStored⟩
  · have h := (hrange date).mpr ⟨hlow, hhigh⟩
    exact ⟨Date.ofText?_canonical h, Date.ofText?_display h⟩
  · have h := (hrange moment.date).mpr ⟨hlow, hhigh⟩
    exact ⟨DateTime.ofText?_canonical h, DateTime.ofText?_inputText h⟩
  · have h := Date.inAnswerRange_of_ofText? hread
    obtain ⟨hlow, hhigh⟩ := (hrange date).mp h
    exact ⟨hlow, hhigh, Date.ofText?_canonical h⟩
  · have h := DateTime.inAnswerRange_of_ofText? hread
    obtain ⟨hlow, hhigh⟩ := (hrange moment.date).mp h
    exact ⟨hlow, hhigh, DateTime.ofText?_canonical h⟩

/-- The leap second at the end of 2016. -/
def leapSecond : DateTime :=
  ⟨⟨2016, 12, 31, by decide⟩, ⟨23, 59, 60, by decide, by decide, by decide⟩⟩

theorem date_texts_read_back_leapSecond :
    (1000 ≤ leapSecond.date.year ∧ leapSecond.date.year ≤ 9999) ∧
      leapSecond.date.display = "31 December 2016" ∧
      Date.ofText? "31 December 2016" = some leapSecond.date ∧
      leapSecond.inputText = "2016-12-31T23:59:60" ∧
      DateTime.ofText? "2016-12-31T23:59:60" = some leapSecond ∧
      Date.ofText? " 31dec 2016" = some leapSecond.date ∧
      DateTime.ofText? "2016-12-31 23:59:60" = some leapSecond ∧
      DateTime.ofText? leapSecond.canonical = some leapSecond := by
  obtain ⟨hdates, hmoments, hdate, hmoment, -⟩ := date_texts_read_back
  have hshown : leapSecond.date.display = "31 December 2016" := by decide
  have hinput : leapSecond.inputText = "2016-12-31T23:59:60" := by decide
  have hshort : Date.ofText? " 31dec 2016" = some leapSecond.date := by decide
  have hspaced : DateTime.ofText? "2016-12-31 23:59:60" = some leapSecond := by decide
  obtain ⟨hlow, hhigh, -⟩ := hdate _ _ hshort
  refine ⟨⟨hlow, hhigh⟩, hshown, ?_, hinput, ?_, hshort, hspaced, (hmoment _ _ hspaced).2.2⟩
  · rw [← hshown]
    exact (hdates _ hlow hhigh).2
  · rw [← hinput]
    exact (hmoments _ hlow hhigh).2

end Questionnaire
