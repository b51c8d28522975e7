import Questionnaire.Calendar.Text
import Questionnaire.Proofs.Text.Digits

/-!
# Canonical dates read back

What a layout of numbers and marks writes of a moment it reads again, in front of whatever the rest
of a layout reads (`readFrom?_write`). So the canonical texts of a date and of a date-time denote
the date and the moment they were written for (`ofText?_canonical`), and so does the text that an
input shows (`ofText?_inputText`).
-/

namespace Questionnaire

/-- A moment whose year has four digits. -/
structure MomentParts.InRange (m : MomentParts) : Prop where
  year_low : 1000 ≤ m.year
  year_high : m.year ≤ 9999
  month_low : 1 ≤ m.month
  month_high : m.month ≤ 12
  day_low : 1 ≤ m.day
  day_high : m.day ≤ 31
  hour : m.hour ≤ 23
  minute : m.minute ≤ 59
  second : m.second ≤ 60

namespace LayoutPart

/-- Parts that are written as digits of a fixed number, or as themselves. -/
def IsFixed : LayoutPart → Bool
  | .plainDay | .monthName | .space => false
  | _ => true

/-- The parts read so far, with one more part of a moment. -/
def set (m parts : MomentParts) : LayoutPart → MomentParts
  | .year => { parts with year := m.year }
  | .month | .monthName => { parts with month := m.month }
  | .day | .plainDay => { parts with day := m.day }
  | .hour => { parts with hour := m.hour }
  | .minute => { parts with minute := m.minute }
  | .second => { parts with second := m.second }
  | .space | .mark _ => parts

end LayoutPart

/-- A number of at most two digits is read whole where it is full or followed by no digit. -/
theorem readPair?_append {low high : Nat} {digits rest : List Char} (hne : digits ≠ [])
    (h : ∀ c ∈ digits, c.isDigit = true) (hwidth : digits.length ≤ 2)
    (hrest : digits.length = 2 ∨ EndsDigits rest) :
    readPair? low high (digits ++ rest) =
      if low ≤ digitsValue digits ∧ digitsValue digits ≤ high then
        some (digitsValue digits, rest)
      else none := by
  rw [readPair?, trimFront_digits hne h, readDigits?_append hne h hwidth hrest]
  rfl

theorem readPair?_paddedTo {low high n : Nat} (hlow : low ≤ n) (hhigh : n ≤ high) (h : n < 100)
    (rest : List Char) : readPair? low high (paddedTo 2 n ++ rest) = some (n, rest) := by
  have hlength : (paddedTo 2 n).length = 2 := length_paddedTo (by decide) h
  rw [readPair?_append (paddedTo_ne_nil 2 n) isDigit_of_mem_paddedTo (Nat.le_of_eq hlength)
    (Or.inl hlength), digitsValue_paddedTo, if_pos ⟨hlow, hhigh⟩]

/-- A number of at most four digits is read as a year where it is full or followed by no digit. -/
theorem readYear?_append {digits rest : List Char} (hne : digits ≠ [])
    (h : ∀ c ∈ digits, c.isDigit = true) (hwidth : digits.length ≤ 4)
    (hrest : digits.length = 4 ∨ EndsDigits rest) :
    readYear? (digits ++ rest) = some ((digitsValue digits : Int), rest) := by
  have hread : readDigits? 4 (digits ++ rest) = some (digitsValue digits, rest) :=
    readDigits?_append hne h hwidth hrest
  obtain ⟨c, hhead, hdigit⟩ := head?_digits hne h rest
  rw [readYear?, trimFront_digits hne h]
  -- A text that begins with a digit begins with no sign.
  split
  · next heq =>
    rw [heq] at hhead
    exact absurd (Option.some.inj hhead ▸ hdigit) (by decide)
  · next heq =>
    rw [heq] at hhead
    exact absurd (Option.some.inj hhead ▸ hdigit) (by decide)
  · rw [hread]
    rfl

theorem readYear?_yearText {year : Int} (hlow : 1000 ≤ year) (hhigh : year ≤ 9999)
    (rest : List Char) : readYear? (yearText year ++ rest) = some (year, rest) := by
  have htext : yearText year = paddedTo 4 year.natAbs := by
    rw [yearText, if_neg (by omega), if_neg (by omega)]
  have hlength : (paddedTo 4 year.natAbs).length = 4 := length_paddedTo (by decide) (by omega)
  rw [htext, readYear?_append (paddedTo_ne_nil 4 _) isDigit_of_mem_paddedTo
    (Nat.le_of_eq hlength) (Or.inl hlength), digitsValue_paddedTo]
  simp
  omega

theorem LayoutPart.read?_write {m : MomentParts} (hm : m.InRange) {part : LayoutPart}
    (hpart : part.IsFixed = true) (parts : MomentParts) (rest : List Char) :
    part.read? parts (part.write m ++ rest) = some (part.set m parts, rest) := by
  obtain ⟨hyear, hyear', hmonth, hmonth', hday, hday', hhour, hminute, hsecond⟩ := hm
  cases part with
  | year => simp [read?, write, readYear?_yearText hyear hyear', set]
  | month => simp [read?, write, readPair?_paddedTo hmonth hmonth' (by omega), set]
  | day => simp [read?, write, readPair?_paddedTo hday hday' (by omega), set]
  | hour => simp [read?, write, readPair?_paddedTo (Nat.zero_le _) hhour (by omega), set]
  | minute => simp [read?, write, readPair?_paddedTo (Nat.zero_le _) hminute (by omega), set]
  | second => simp [read?, write, readPair?_paddedTo (Nat.zero_le _) hsecond (by omega), set]
  | mark c => simp [read?, write, set]
  | plainDay => cases hpart
  | monthName => cases hpart
  | space => cases hpart

/-- What the front of a layout writes it reads, and leaves the rest to the rest of the layout. -/
theorem Layout.readFrom?_write {m : MomentParts} (hm : m.InRange) :
    ∀ (front : Layout), (∀ part ∈ front, part.IsFixed = true) → ∀ (more : Layout)
      (parts : MomentParts) (rest : List Char),
      Layout.readFrom? (front ++ more) parts (front.flatMap (LayoutPart.write m) ++ rest) =
        Layout.readFrom? more (front.foldl (fun parts part => part.set m parts) parts) rest := by
  intro front
  induction front with
  | nil =>
      intro _ more parts rest
      rfl
  | cons part front ih =>
      intro hfixed more parts rest
      have hread := LayoutPart.read?_write hm (hfixed part (List.mem_cons_self ..)) parts
        (front.flatMap (LayoutPart.write m) ++ rest)
      rw [List.cons_append, Layout.readFrom?, List.flatMap_cons, List.append_assoc, hread]
      exact ih (fun part hpart => hfixed part (List.mem_cons_of_mem _ hpart)) more _ rest

/-! ## Moments -/

theorem daysInMonth_le (year : Int) (month : Nat) : daysInMonth year month ≤ 31 := by
  unfold daysInMonth
  split <;> (try split) <;> omega

theorem month_of_daysInMonth_pos {year : Int} {month : Nat} (h : 1 ≤ daysInMonth year month) :
    1 ≤ month ∧ month ≤ 12 := by
  unfold daysInMonth at h
  split at h <;> omega

theorem DateTime.inRange_parts {moment : DateTime} (h : moment.date.inAnswerRange = true) :
    moment.parts.InRange := by
  obtain ⟨-, -, hday, hdays⟩ := moment.date.isDate
  obtain ⟨hmonth, hmonth'⟩ := month_of_daysInMonth_pos (Nat.le_trans hday hdays)
  simp only [Date.inAnswerRange, Bool.and_eq_true, decide_eq_true_eq] at h
  exact
    { year_low := h.1
      year_high := h.2
      month_low := hmonth
      month_high := hmonth'
      day_low := hday
      day_high := Nat.le_trans hdays (daysInMonth_le _ _)
      hour := Nat.le_of_lt_succ moment.time.hour_lt
      minute := Nat.le_of_lt_succ moment.time.minute_lt
      second := moment.time.second_le }

theorem date?_parts (moment : DateTime) : moment.parts.date? = some moment.date := by
  rw [MomentParts.date?, Date.of?]
  exact dif_pos moment.date.isDate

theorem dateTime?_parts (moment : DateTime) : moment.parts.dateTime? = some moment := by
  have htime : Time.of? moment.parts.hour moment.parts.minute moment.parts.second =
      some moment.time :=
    dif_pos ⟨moment.time.hour_lt, moment.time.minute_lt, moment.time.second_le⟩
  simp [MomentParts.dateTime?, date?_parts, htime]

/-- A text of a year, marks and numbers that end with a number has nothing to trim. -/
theorem trimmed_write {m : MomentParts} (hm : m.InRange) (middle : Layout) {last : LayoutPart}
    (hlast : last = .day ∨ last = .minute ∨ last = .second) :
    Text.trimmed ((LayoutPart.year :: middle ++ [last]).flatMap (LayoutPart.write m)) =
      (LayoutPart.year :: middle ++ [last]).flatMap (LayoutPart.write m) := by
  have hyear : LayoutPart.year.write m = paddedTo 4 m.year.natAbs := by
    have hlow := hm.year_low
    have hhigh := hm.year_high
    rw [LayoutPart.write, yearText, if_neg (by omega), if_neg (by omega)]
  obtain ⟨n, hn⟩ : ∃ n, last.write m = paddedTo 2 n := by
    rcases hlast with rfl | rfl | rfl
    · exact ⟨_, rfl⟩
    · exact ⟨_, rfl⟩
    · exact ⟨_, rfl⟩
  simp only [List.cons_append, List.flatMap_cons, List.flatMap_append, List.flatMap_nil,
    List.append_nil, hyear, hn, ← List.append_assoc]
  exact trimmed_digits (paddedTo_ne_nil 4 _) isDigit_of_mem_paddedTo (paddedTo_ne_nil 2 n)
    isDigit_of_mem_paddedTo

/-- The canonical text of a date denotes the date. -/
theorem Date.ofText?_canonical {date : Date} (h : date.inAnswerRange = true) :
    Date.ofText? date.canonical = some date := by
  have hm : date.atMidnight.parts.InRange := DateTime.inRange_parts h
  have htrimmed := trimmed_write hm [.mark '-', .month, .mark '-'] (Or.inl rfl)
  have hread := Layout.readFrom?_write hm dateLayout (by decide) [] {} []
  simp only [List.append_nil] at hread
  have hfirst : dateLayout.read? (Text.trimmed date.canonical.toList) =
      some date.atMidnight.parts := by
    rw [Date.canonical, Layout.write, String.toList_ofList]
    exact (congrArg (Layout.read? dateLayout) htrimmed).trans hread
  simp [Date.ofText?, dateLayouts, hfirst, date?_parts, Date.atMidnight, h]

/-- The canonical text of a moment denotes the moment. -/
theorem DateTime.ofText?_canonical {moment : DateTime} (h : moment.date.inAnswerRange = true) :
    DateTime.ofText? moment.canonical = some moment := by
  have hm := DateTime.inRange_parts h
  have htrimmed := trimmed_write hm
    [.mark '-', .month, .mark '-', .day, .mark 'T', .hour, .mark ':', .minute, .mark ':']
    (Or.inr (Or.inr rfl))
  have hread := Layout.readFrom?_write hm dateTimeLayout (by decide) [] {} []
  simp only [List.append_nil] at hread
  have hfirst : dateTimeLayout.read? (Text.trimmed moment.canonical.toList) =
      some moment.parts := by
    rw [DateTime.canonical, Layout.write, String.toList_ofList]
    exact (congrArg (Layout.read? dateTimeLayout) htrimmed).trans hread
  simp [DateTime.ofText?, dateTimeLayouts, hfirst, dateTime?_parts, h]

/-- The text that an input shows denotes the moment it is shown for. -/
theorem DateTime.ofText?_inputText {moment : DateTime} (h : moment.date.inAnswerRange = true) :
    DateTime.ofText? moment.inputText = some moment := by
  unfold inputText
  split
  · next hsecond =>
    have hm := DateTime.inRange_parts h
    have htrimmed := trimmed_write hm
      [.mark '-', .month, .mark '-', .day, .mark 'T', .hour, .mark ':'] (Or.inr (Or.inl rfl))
    have hread := fun more => Layout.readFrom?_write hm inputLayout (by decide) more {} []
    simp only [List.append_nil] at hread
    have hinput : Text.trimmed (inputLayout.write moment.parts).toList =
        inputLayout.flatMap (LayoutPart.write moment.parts) := by
      rw [Layout.write, String.toList_ofList]
      exact htrimmed
    -- The layout with seconds, which is tried first, finds no mark behind the minutes.
    have hfirst : dateTimeLayout.read? (inputLayout.flatMap (LayoutPart.write moment.parts)) =
        none := hread [.mark ':', .second]
    have hnext : inputLayout.read? (inputLayout.flatMap (LayoutPart.write moment.parts)) =
        some { moment.parts with second := 0 } := hread []
    have hparts : { moment.parts with second := 0 } = moment.parts := by
      simp [DateTime.parts, hsecond]
    rw [hparts] at hnext
    simp [DateTime.ofText?, dateTimeLayouts, hinput, hfirst, hnext, dateTime?_parts, h]
  · exact DateTime.ofText?_canonical h

/-! ## What a text can denote -/

theorem Date.inAnswerRange_of_ofText? {s : String} {date : Date} (h : Date.ofText? s = some date) :
    date.inAnswerRange = true :=
  (Option.filter_eq_some_iff.mp h).2

theorem DateTime.inAnswerRange_of_ofText? {s : String} {moment : DateTime}
    (h : DateTime.ofText? s = some moment) : moment.date.inAnswerRange = true :=
  (Option.filter_eq_some_iff.mp h).2

theorem Date.canonical_ne_empty (date : Date) : date.canonical ≠ "" := by
  simp [Date.canonical, dateLayout, Layout.write, LayoutPart.write]

theorem DateTime.canonical_ne_empty (moment : DateTime) : moment.canonical ≠ "" := by
  simp [DateTime.canonical, dateTimeLayout, dateLayout, Layout.write, LayoutPart.write]

end Questionnaire
