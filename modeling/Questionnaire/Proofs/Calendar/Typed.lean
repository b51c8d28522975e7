import Questionnaire.Proofs.Calendar.Canonical

/-!
# Dates typed part by part

The parts of a date that make no date are kept as they were typed, in the layout of a stored date.
What is typed so denotes a date just when all parts are there and make one
(`Date.ofText?_typed`, `DateTime.ofText?_typed`): no layout fits the text when a part is missing, and
only the layout it is written in fits it when none is.
-/

namespace Questionnaire

/-- A part of a date as it is typed, if it is. -/
def typedPart (part : Option Nat) : List Char :=
  (part.map fun n => (toString n).toList).getD []

/-- The parts of a date in the layout of a stored date. -/
def typedDate (year month day : Option Nat) (rest : List Char) : List Char :=
  typedPart year ++ '-' :: (typedPart month ++ '-' :: (typedPart day ++ rest))

/-- What may follow the day: nothing, or a character that neither goes on with a number nor is a
dash or a blank. -/
def EndsDate (rest : List Char) : Prop :=
  ∀ c ∈ rest.head?, c.isDigit = false ∧ c ≠ '-' ∧ Text.isBlank c = false

theorem endsDate_nil : EndsDate [] := nofun

theorem endsDate_cons {c : Char} (h : c.isDigit = false ∧ c ≠ '-' ∧ Text.isBlank c = false)
    (rest : List Char) : EndsDate (c :: rest) := by
  intro d hd
  obtain rfl := Option.some.inj hd
  exact h

theorem EndsDate.endsDigits {rest : List Char} (h : EndsDate rest) : EndsDigits rest :=
  fun c hc => (h c hc).1

/-! ## Parts -/

theorem readDigits?_ends {width : Nat} {rest : List Char} (h : EndsDigits rest) :
    readDigits? width rest = none := by
  have hnone : (rest.take width).takeWhile Char.isDigit = [] := by
    cases width with
    | zero => rfl
    | succ width =>
        cases rest with
        | nil => rfl
        | cons c rest => simp [h c rfl]
  unfold readDigits?
  simp only [hnone]
  rfl

/-- A part of at most two digits, followed by what ends it. -/
theorem readPair?_typed (low high : Nat) {part : Option Nat} (hpart : ∀ n ∈ part, n < 100)
    {rest : List Char} (hrest : EndsDigits rest)
    (hblank : ∀ c ∈ rest.head?, Text.isBlank c = false) :
    readPair? low high (typedPart part ++ rest) =
      (part.filter fun n => low ≤ n ∧ n ≤ high).map (·, rest) := by
  cases part with
  | none =>
      show readPair? low high rest = none
      rw [readPair?, Text.trimFront_of_head hblank, readDigits?_ends hrest]
      rfl
  | some n =>
      have hlength : (toString n).toList.length ≤ 2 :=
        (length_toString_le_iff (by decide)).mpr (hpart n rfl)
      show readPair? low high ((toString n).toList ++ rest) = _
      rw [readPair?_append (toString_toList_ne_nil n) isDigit_of_mem_toString hlength
        (Or.inr hrest), digitsValue_toString]
      by_cases hrange : low ≤ n ∧ n ≤ high
      · simp [hrange, Option.filter]
      · simp [hrange, Option.filter]

theorem endsDigits_dash (rest : List Char) : EndsDigits ('-' :: rest) := by
  intro c hc
  obtain rfl := Option.some.inj hc
  rfl

theorem not_blank_dash (rest : List Char) :
    ∀ c ∈ ('-' :: rest).head?, Text.isBlank c = false := by
  intro c hc
  obtain rfl := Option.some.inj hc
  decide

theorem filter_of_range {low high : Nat} {part : Option Nat}
    (hpart : ∀ n ∈ part, low ≤ n ∧ n ≤ high) :
    part.filter (fun n => low ≤ n ∧ n ≤ high) = part := by
  cases part with
  | none => rfl
  | some n => exact Option.filter_eq_some_iff.mpr ⟨rfl, by simpa using hpart n rfl⟩

/-! ## Layouts, part by part -/

section

variable {part : LayoutPart} {layout : Layout} {parts parts' : MomentParts} {cs rest : List Char}

theorem Layout.readFrom?_of_read (h : part.read? parts cs = some (parts', rest)) :
    Layout.readFrom? (part :: layout) parts cs = Layout.readFrom? layout parts' rest := by
  rw [Layout.readFrom?, h]
  rfl

theorem Layout.readFrom?_of_read_none (h : part.read? parts cs = none) :
    Layout.readFrom? (part :: layout) parts cs = none := by
  rw [Layout.readFrom?, h]
  rfl

theorem LayoutPart.read?_year {n : Int} (h : readYear? cs = some (n, rest)) :
    LayoutPart.read? .year parts cs = some ({ parts with year := n }, rest) :=
  congrArg (Option.map _) h

theorem LayoutPart.read?_month {n : Nat} (h : readPair? 1 12 cs = some (n, rest)) :
    LayoutPart.read? .month parts cs = some ({ parts with month := n }, rest) :=
  congrArg (Option.map _) h

theorem LayoutPart.read?_day {n : Nat} (h : readPair? 1 31 cs = some (n, rest)) :
    LayoutPart.read? .day parts cs = some ({ parts with day := n }, rest) :=
  congrArg (Option.map _) h

theorem LayoutPart.read?_hour {n : Nat} (h : readPair? 0 23 cs = some (n, rest)) :
    LayoutPart.read? .hour parts cs = some ({ parts with hour := n }, rest) :=
  congrArg (Option.map _) h

theorem LayoutPart.read?_minute {n : Nat} (h : readPair? 0 59 cs = some (n, rest)) :
    LayoutPart.read? .minute parts cs = some ({ parts with minute := n }, rest) :=
  congrArg (Option.map _) h

theorem LayoutPart.read?_mark (c : Char) (parts : MomentParts) (rest : List Char) :
    LayoutPart.read? (.mark c) parts (c :: rest) = some (parts, rest) :=
  if_pos rfl

theorem LayoutPart.read?_mark_none {c : Char} (h : ∀ d ∈ rest.head?, d ≠ c) (parts : MomentParts) :
    LayoutPart.read? (.mark c) parts rest = none := by
  cases rest with
  | nil => rfl
  | cons d rest => exact if_neg (h d rfl)

end

/-! ## Dates -/

section

variable {year month day : Option Nat} {rest : List Char} (hrest : EndsDate rest)

include hrest

/-- Without a year, the dash in front is a sign, and then one number is missing. -/
theorem readFrom?_typedDate_none (hday : ∀ n ∈ day, n < 100) (more : Layout) :
    Layout.readFrom? (dateLayout ++ more) {} (typedDate none month day rest) = none := by
  have htext : Text.trimFront (typedDate none month day rest) =
      '-' :: (typedPart month ++ '-' :: (typedPart day ++ rest)) :=
    Text.trimFront_of_head (not_blank_dash _)
  cases month with
  | none =>
      have hyear : LayoutPart.read? .year {} (typedDate none none day rest) = none := by
        rw [LayoutPart.read?, readYear?, htext]
        show ((readDigits? _ ('-' :: (typedPart day ++ rest))).map _).map _ = none
        rw [readDigits?_ends (endsDigits_dash _)]
        rfl
      exact Layout.readFrom?_of_read_none hyear
  | some n =>
      have hlength : (toString n).toList.length ≤
          ((toString n).toList ++ '-' :: (typedPart day ++ rest)).length := by
        rw [List.length_append]
        omega
      have hread := readDigits?_append (toString_toList_ne_nil n) isDigit_of_mem_toString hlength
        (Or.inr (endsDigits_dash (typedPart day ++ rest)))
      obtain ⟨parts, hyear⟩ : ∃ parts, LayoutPart.read? .year {}
          (typedDate none (some n) day rest) = some (parts, '-' :: (typedPart day ++ rest)) := by
        rw [LayoutPart.read?, readYear?, htext]
        exact ⟨_, congrArg (Option.map _ ∘ Option.map _) hread⟩
      have hmonth := readPair?_typed 1 12 hday hrest.endsDigits
        fun c hc => (hrest c hc).2.2
      refine (Layout.readFrom?_of_read hyear).trans ?_
      refine (Layout.readFrom?_of_read (LayoutPart.read?_mark ..)).trans ?_
      cases hpart : day.filter fun n => 1 ≤ n ∧ n ≤ 12 with
      | none =>
          rw [hpart] at hmonth
          refine Layout.readFrom?_of_read_none ?_
          rw [LayoutPart.read?, hmonth]
          rfl
      | some d =>
          rw [hpart] at hmonth
          refine (Layout.readFrom?_of_read (LayoutPart.read?_month hmonth)).trans ?_
          exact Layout.readFrom?_of_read_none
            (LayoutPart.read?_mark_none (fun c hc => (hrest c hc).2.1) _)

/-- A typed date is read when all its parts are there, and leaves what follows it. -/
theorem readFrom?_typedDate (hyear : ∀ n ∈ year, 1000 ≤ n ∧ n ≤ 9999)
    (hmonth : ∀ n ∈ month, 1 ≤ n ∧ n ≤ 12) (hday : ∀ n ∈ day, 1 ≤ n ∧ n ≤ 31) (more : Layout) :
    Layout.readFrom? (dateLayout ++ more) {} (typedDate year month day rest) =
      year.bind fun y => month.bind fun m => day.bind fun d =>
        Layout.readFrom? more { year := y, month := m, day := d } rest := by
  have hdayWidth : ∀ n ∈ day, n < 100 := fun n hn => by have := hday n hn; omega
  have hmonthWidth : ∀ n ∈ month, n < 100 := fun n hn => by have := hmonth n hn; omega
  cases year with
  | none => exact readFrom?_typedDate_none hrest hdayWidth more
  | some y =>
      have hlength : (toString y).toList.length = 4 := by
        obtain ⟨hlow, hhigh⟩ := hyear y rfl
        have hle : (toString y).toList.length ≤ 4 :=
          (length_toString_le_iff (by decide)).mpr (Nat.lt_succ_of_le hhigh)
        have hge : ¬ (toString y).toList.length ≤ 3 := by
          rw [length_toString_le_iff (by decide)]
          omega
        omega
      have hyearRead : readYear? ((toString y).toList ++ '-' ::
          (typedPart month ++ '-' :: (typedPart day ++ rest))) = some (_, _) :=
        readYear?_append (toString_toList_ne_nil y) isDigit_of_mem_toString
          (Nat.le_of_eq hlength) (Or.inl hlength)
      have hmonthRead := readPair?_typed 1 12 hmonthWidth
        (endsDigits_dash (typedPart day ++ rest)) (not_blank_dash _)
      have hdayRead := readPair?_typed 1 31 hdayWidth hrest.endsDigits
        fun c hc => (hrest c hc).2.2
      rw [filter_of_range hmonth] at hmonthRead
      rw [filter_of_range hday] at hdayRead
      rw [digitsValue_toString] at hyearRead
      refine (Layout.readFrom?_of_read (LayoutPart.read?_year hyearRead)).trans ?_
      refine (Layout.readFrom?_of_read (LayoutPart.read?_mark ..)).trans ?_
      cases month with
      | none =>
          refine Layout.readFrom?_of_read_none ?_
          rw [LayoutPart.read?, hmonthRead]
          rfl
      | some m =>
          refine (Layout.readFrom?_of_read (LayoutPart.read?_month hmonthRead)).trans ?_
          refine (Layout.readFrom?_of_read (LayoutPart.read?_mark ..)).trans ?_
          cases day with
          | none =>
              refine Layout.readFrom?_of_read_none ?_
              rw [LayoutPart.read?, hdayRead]
              rfl
          | some d => exact Layout.readFrom?_of_read (LayoutPart.read?_day hdayRead)

end

/-! ## Layouts that do not fit -/

theorem subset_trimFront (cs : List Char) : Text.trimFront cs ⊆ cs :=
  (List.dropWhile_sublist _).subset

theorem subset_of_readDigits? {width n : Nat} {cs rest : List Char}
    (h : readDigits? width cs = some (n, rest)) : rest ⊆ cs := by
  simp only [readDigits?] at h
  split at h
  · exact nomatch h
  · obtain ⟨-, rfl⟩ := Prod.mk.inj (Option.some.inj h)
    exact List.drop_subset _ cs

theorem subset_of_readPair? {low high n : Nat} {cs rest : List Char}
    (h : readPair? low high cs = some (n, rest)) : rest ⊆ cs := by
  obtain ⟨⟨n', rest'⟩, hread, hpair⟩ := Option.bind_eq_some_iff.mp h
  dsimp only at hpair
  split at hpair
  · obtain ⟨-, rfl⟩ := Prod.mk.inj (Option.some.inj hpair)
    exact List.Subset.trans (subset_of_readDigits? hread) (subset_trimFront cs)
  · exact nomatch hpair

theorem subset_of_readYear? {n : Int} {cs rest : List Char} (h : readYear? cs = some (n, rest)) :
    rest ⊆ cs := by
  refine List.Subset.trans ?_ (subset_trimFront cs)
  unfold readYear? at h
  split at h
  · next heq =>
    obtain ⟨⟨n', rest'⟩, hread, hyear⟩ := Option.map_eq_some_iff.mp h
    obtain ⟨-, rfl⟩ := Prod.mk.inj hyear
    rw [heq]
    exact List.subset_cons_of_subset _ (subset_of_readDigits? hread)
  · next heq =>
    obtain ⟨⟨n', rest'⟩, hread, hyear⟩ := Option.map_eq_some_iff.mp h
    obtain ⟨-, rfl⟩ := Prod.mk.inj hyear
    rw [heq]
    exact List.subset_cons_of_subset _ (subset_of_readDigits? hread)
  · obtain ⟨⟨n', rest'⟩, hread, hyear⟩ := Option.map_eq_some_iff.mp h
    obtain ⟨-, rfl⟩ := Prod.mk.inj hyear
    exact subset_of_readDigits? hread

theorem subset_of_dropWord? : ∀ {word cs rest : List Char}, dropWord? word cs = some rest →
    rest ⊆ cs := by
  intro word
  induction word with
  | nil =>
      intro cs rest h
      obtain rfl : cs = rest := Option.some.inj h
      exact List.Subset.refl cs
  | cons w word ih =>
      intro cs rest h
      cases cs with
      | nil => exact nomatch h
      | cons c cs =>
          simp only [dropWord?] at h
          split at h
          · exact List.subset_cons_of_subset c (ih h)
          · exact nomatch h

theorem subset_of_readMonthName? {n : Nat} {cs rest : List Char}
    (h : readMonthName? cs = some (n, rest)) : rest ⊆ cs := by
  obtain ⟨i, -, hname⟩ := List.exists_of_findSome?_eq_some h
  obtain ⟨short, hshort, hrest⟩ := Option.map_eq_some_iff.mp hname
  obtain ⟨-, rfl⟩ := Prod.mk.inj hrest
  refine List.Subset.trans ?_ (subset_of_dropWord? hshort)
  cases hlong : dropWord? ((monthName (i + 1)).toList.drop 3) short with
  | none => exact List.Subset.refl short
  | some long => exact subset_of_dropWord? hlong

/-- Reading a part leaves characters of the text. -/
theorem LayoutPart.subset_of_read? {part : LayoutPart} {parts parts' : MomentParts}
    {cs rest : List Char} (h : part.read? parts cs = some (parts', rest)) : rest ⊆ cs := by
  cases part with
  | year =>
      obtain ⟨⟨n, rest'⟩, hread, hrest⟩ := Option.map_eq_some_iff.mp h
      obtain ⟨-, rfl⟩ := Prod.mk.inj hrest
      exact subset_of_readYear? hread
  | monthName =>
      obtain ⟨⟨n, rest'⟩, hread, hrest⟩ := Option.map_eq_some_iff.mp h
      obtain ⟨-, rfl⟩ := Prod.mk.inj hrest
      exact subset_of_readMonthName? hread
  | space =>
      obtain ⟨-, rfl⟩ := Prod.mk.inj (Option.some.inj h)
      exact subset_trimFront cs
  | mark c =>
      cases cs with
      | nil => cases h
      | cons d cs =>
          simp only [read?] at h
          split at h
          · obtain ⟨-, rfl⟩ := Prod.mk.inj (Option.some.inj h)
            exact List.subset_cons_self _ _
          · cases h
  | month | day | plainDay | hour | minute | second =>
      obtain ⟨⟨n, rest'⟩, hread, hrest⟩ := Option.map_eq_some_iff.mp h
      obtain ⟨-, rfl⟩ := Prod.mk.inj hrest
      exact subset_of_readPair? hread

/-- A layout with a mark only fits texts that have the character. -/
theorem Layout.mem_of_readFrom? {c : Char} : ∀ {layout : Layout}, LayoutPart.mark c ∈ layout →
    ∀ {parts parts' : MomentParts} {cs : List Char},
    Layout.readFrom? layout parts cs = some parts' → c ∈ cs := by
  intro layout
  induction layout with
  | nil => rintro ⟨⟩
  | cons part layout ih =>
      intro hmark parts parts' cs h
      rw [Layout.readFrom?] at h
      obtain ⟨⟨parts'', rest⟩, hread, hrest⟩ := Option.bind_eq_some_iff.mp h
      rcases List.mem_cons.mp hmark with rfl | hmark
      · cases cs with
        | nil => cases hread
        | cons d cs =>
            simp only [LayoutPart.read?] at hread
            split at hread
            · next heq => exact heq ▸ List.mem_cons_self ..
            · cases hread
      · exact LayoutPart.subset_of_read? hread (ih hmark hrest)

theorem Layout.read?_eq_none {layout : Layout} {c : Char} (hmark : LayoutPart.mark c ∈ layout)
    {cs : List Char} (hc : c ∉ cs) : layout.read? cs = none := by
  cases hread : layout.read? cs with
  | none => rfl
  | some parts => exact absurd (Layout.mem_of_readFrom? hmark hread) hc

theorem toLower_of_digit_or_dash {c : Char} (h : c.isDigit = true ∨ c = '-') : c.toLower = c := by
  have hcode : c.toNat ≤ 57 := by
    rcases h with hdigit | rfl
    · exact (isDigit_iff.mp hdigit).2
    · decide
  refine dif_neg ?_
  rintro ⟨hlow, -⟩
  have hlow : 65 ≤ c.toNat := hlow
  omega

/-- No month is named by digits and dashes. -/
theorem readMonthName?_eq_none {cs : List Char} (h : ∀ c ∈ cs, c.isDigit = true ∨ c = '-') :
    readMonthName? cs = none := by
  have hletters : ∀ i < 12, ((monthName (i + 1)).toList.take 3).head?.any
      (fun w => !w.toLower.isDigit && w.toLower != '-') = true := by
    decide
  rw [readMonthName?, List.findSome?_eq_none_iff]
  intro i hi
  have hletter := hletters i (List.mem_range.mp hi)
  suffices hnone : dropWord? ((monthName (i + 1)).toList.take 3) cs = none from
    congrArg (Option.map _) hnone
  cases hname : (monthName (i + 1)).toList.take 3 with
  | nil =>
      rw [hname] at hletter
      exact nomatch hletter
  | cons w word =>
      rw [hname] at hletter
      cases cs with
      | nil => rfl
      | cons c cs =>
          have hc := h c (List.mem_cons_self ..)
          have hne : ¬ c.toLower = w.toLower := by
            rw [toLower_of_digit_or_dash hc]
            rintro rfl
            rcases hc with hc | hc <;> simp [hc] at hletter
          exact if_neg hne

/-! ## Typed texts -/

theorem isDigit_of_mem_typedPart {part : Option Nat} : ∀ c ∈ typedPart part, c.isDigit = true := by
  intro c hc
  cases part with
  | none => exact nomatch hc
  | some n => exact isDigit_of_mem_toString c hc

theorem mem_typedDate {year month day : Option Nat} {rest : List Char} {c : Char}
    (h : c ∈ typedDate year month day rest) : (c.isDigit = true ∨ c = '-') ∨ c ∈ rest := by
  simp only [typedDate, List.mem_append, List.mem_cons] at h
  rcases h with hc | rfl | hc | rfl | hc | hc
  · exact Or.inl (Or.inl (isDigit_of_mem_typedPart c hc))
  · exact Or.inl (Or.inr rfl)
  · exact Or.inl (Or.inl (isDigit_of_mem_typedPart c hc))
  · exact Or.inl (Or.inr rfl)
  · exact Or.inl (Or.inl (isDigit_of_mem_typedPart c hc))
  · exact Or.inr hc

theorem trimmed_of_not_blank {cs : List Char} (h : ∀ c ∈ cs, Text.isBlank c = false) :
    Text.trimmed cs = cs :=
  Text.trimmed_of_ends (fun c hc => h c (List.mem_of_head? hc))
    fun c hc => h c (List.mem_of_getLast? hc)

theorem isBlank_of_digit_or_dash {c : Char} (h : c.isDigit = true ∨ c = '-') :
    Text.isBlank c = false := by
  rcases h with hdigit | rfl
  · exact isBlank_of_isDigit hdigit
  · decide

/-- Every layout of a date-time has a colon. -/
theorem DateTime.ofText?_eq_none {s : String} (h : ':' ∉ Text.trimmed s.toList) :
    DateTime.ofText? s = none := by
  have hlayouts : ∀ layout ∈ dateTimeLayouts, LayoutPart.mark ':' ∈ layout := by decide
  have hnone : (dateTimeLayouts.findSome? fun layout =>
      (layout.read? (Text.trimmed s.toList)).bind MomentParts.dateTime?) = none := by
    rw [List.findSome?_eq_none_iff]
    intro layout hlayout
    rw [Layout.read?_eq_none (hlayouts layout hlayout) h]
    rfl
  rw [ofText?, hnone]
  rfl

/-- A date with the month as a word is not written in digits and dashes alone. -/
theorem read?_wordLayout_eq_none {cs : List Char} (h : ∀ c ∈ cs, c.isDigit = true ∨ c = '-') :
    wordLayout.read? cs = none := by
  cases hread : LayoutPart.read? .plainDay {} cs with
  | none => exact Layout.readFrom?_of_read_none hread
  | some found =>
      obtain ⟨parts, rest⟩ := found
      have hrest := LayoutPart.subset_of_read? hread
      have hname : readMonthName? (Text.trimFront rest) = none :=
        readMonthName?_eq_none fun c hc => h c (hrest (subset_trimFront rest hc))
      refine (Layout.readFrom?_of_read hread).trans ?_
      refine (Layout.readFrom?_of_read rfl).trans (Layout.readFrom?_of_read_none ?_)
      rw [LayoutPart.read?, hname]
      rfl

theorem Date.inAnswerRange_of_of? {year month day : Nat} (hyear : 1000 ≤ year ∧ year ≤ 9999)
    {date : Date} (h : Date.of? year month day = some date) : date.inAnswerRange = true := by
  unfold Date.of? at h
  split at h
  · obtain rfl := Option.some.inj h
    simp only [inAnswerRange, Bool.and_eq_true, decide_eq_true_eq]
    omega
  · cases h

section

variable {year month day : Option Nat} (hyear : ∀ n ∈ year, 1000 ≤ n ∧ n ≤ 9999)
  (hmonth : ∀ n ∈ month, 1 ≤ n ∧ n ≤ 12) (hday : ∀ n ∈ day, 1 ≤ n ∧ n ≤ 31)

include hyear hmonth hday

/-- What is typed of a date denotes the date of its parts, if they are all there. -/
theorem Date.ofText?_typed :
    Date.ofText? (String.ofList (typedDate year month day [])) =
      year.bind fun y => month.bind fun m => day.bind fun d => Date.of? y m d := by
  have hchars : ∀ c ∈ typedDate year month day [], c.isDigit = true ∨ c = '-' := fun c hc =>
    (mem_typedDate hc).resolve_right List.not_mem_nil
  have htrimmed : Text.trimmed (String.ofList (typedDate year month day [])).toList =
      typedDate year month day [] := by
    rw [String.toList_ofList]
    exact trimmed_of_not_blank fun c hc => isBlank_of_digit_or_dash (hchars c hc)
  have hnot : ∀ {c : Char}, ¬ (c.isDigit = true ∨ c = '-') → c ∉ typedDate year month day [] :=
    fun hc hmem => hc (hchars _ hmem)
  have hfirst : (dateLayout.read? (typedDate year month day [])).bind MomentParts.date? =
      year.bind fun y => month.bind fun m => day.bind fun d => Date.of? y m d := by
    have hread := readFrom?_typedDate endsDate_nil hyear hmonth hday []
    rw [List.append_nil] at hread
    rw [Layout.read?, hread]
    cases year <;> cases month <;> cases day <;> rfl
  have hslash : slashLayout.read? (typedDate year month day []) = none :=
    Layout.read?_eq_none (show LayoutPart.mark '/' ∈ slashLayout by decide) (hnot (by decide))
  have hword : wordLayout.read? (typedDate year month day []) = none :=
    read?_wordLayout_eq_none hchars
  have htime : DateTime.ofText? (String.ofList (typedDate year month day [])) = none := by
    refine DateTime.ofText?_eq_none ?_
    rw [htrimmed]
    exact hnot (by decide)
  have hrange : ∀ date ∈ year.bind fun y => month.bind fun m => day.bind fun d =>
      Date.of? (y : Int) m d, date.inAnswerRange = true := by
    intro date hdate
    obtain ⟨y, hy, hdate⟩ := Option.bind_eq_some_iff.mp hdate
    obtain ⟨m, -, hdate⟩ := Option.bind_eq_some_iff.mp hdate
    obtain ⟨d, -, hdate⟩ := Option.bind_eq_some_iff.mp hdate
    exact Date.inAnswerRange_of_of? (hyear y hy) hdate
  simp only [ofText?, htrimmed, dateLayouts, List.findSome?_cons, hfirst, hslash, hword, htime]
  generalize (year.bind fun y => month.bind fun m => day.bind fun d => Date.of? (y : Int) m d) =
    found at hrange ⊢
  cases found with
  | none => rfl
  | some date => simpa using hrange date rfl

end

/-- A time of day behind the mark that ends a date. -/
def typedTime (hour minute : Option Nat) : List Char :=
  'T' :: (typedPart hour ++ ':' :: typedPart minute)

theorem not_blank_of_mem_typedTime {year month day hour minute : Option Nat} {c : Char}
    (h : c ∈ typedDate year month day (typedTime hour minute)) :
    Text.isBlank c = false ∧ c ≠ '/' := by
  have hdigit : ∀ {c : Char}, c.isDigit = true ∨ c = '-' → Text.isBlank c = false ∧ c ≠ '/' := by
    intro c hc
    refine ⟨isBlank_of_digit_or_dash hc, ?_⟩
    rintro rfl
    exact absurd hc (by decide)
  rcases mem_typedDate h with hc | hc
  · exact hdigit hc
  · simp only [typedTime, List.mem_cons, List.mem_append] at hc
    rcases hc with rfl | hc | rfl | hc
    · decide
    · exact hdigit (Or.inl (isDigit_of_mem_typedPart c hc))
    · decide
    · exact hdigit (Or.inl (isDigit_of_mem_typedPart c hc))

theorem endsDate_typedTime (hour minute : Option Nat) : EndsDate (typedTime hour minute) :=
  endsDate_cons (by decide) _

section

variable {hour minute : Option Nat} (hhour : ∀ n ∈ hour, 0 ≤ n ∧ n ≤ 23)
  (hminute : ∀ n ∈ minute, 0 ≤ n ∧ n ≤ 59)

include hhour hminute

/-- A typed time is read when both its parts are there. -/
theorem readFrom?_typedTime (parts : MomentParts) (more : Layout) :
    Layout.readFrom? (.mark 'T' :: (minuteLayout ++ more)) parts (typedTime hour minute) =
      hour.bind fun h => minute.bind fun m =>
        Layout.readFrom? more { parts with hour := h, minute := m } [] := by
  have hcolon : EndsDigits (':' :: typedPart minute) := by
    intro c hc
    obtain rfl := Option.some.inj hc
    rfl
  have hcolonBlank : ∀ c ∈ (':' :: typedPart minute).head?, Text.isBlank c = false := by
    intro c hc
    obtain rfl := Option.some.inj hc
    decide
  have hhourRead := readPair?_typed 0 23 (fun n hn => by have := hhour n hn; omega) hcolon hcolonBlank
  have hminuteRead := readPair?_typed 0 59 (fun n hn => by have := hminute n hn; omega)
    endsDate_nil.endsDigits nofun
  rw [filter_of_range hhour] at hhourRead
  rw [filter_of_range hminute, List.append_nil] at hminuteRead
  refine (Layout.readFrom?_of_read (LayoutPart.read?_mark ..)).trans ?_
  cases hour with
  | none =>
      refine Layout.readFrom?_of_read_none ?_
      rw [LayoutPart.read?, hhourRead]
      rfl
  | some h =>
      refine (Layout.readFrom?_of_read (LayoutPart.read?_hour hhourRead)).trans ?_
      refine (Layout.readFrom?_of_read (LayoutPart.read?_mark ..)).trans ?_
      cases minute with
      | none =>
          refine Layout.readFrom?_of_read_none ?_
          rw [LayoutPart.read?, hminuteRead]
          rfl
      | some m => exact Layout.readFrom?_of_read (LayoutPart.read?_minute hminuteRead)

variable {year month day : Option Nat} (hyear : ∀ n ∈ year, 1000 ≤ n ∧ n ≤ 9999)
  (hmonth : ∀ n ∈ month, 1 ≤ n ∧ n ≤ 12) (hday : ∀ n ∈ day, 1 ≤ n ∧ n ≤ 31)

include hyear hmonth hday

theorem read?_typedDate_time (layout more : Layout)
    (h : layout = dateLayout ++ (.mark 'T' :: (minuteLayout ++ more))) :
    layout.read? (typedDate year month day (typedTime hour minute)) =
      year.bind fun y => month.bind fun m => day.bind fun d => hour.bind fun h =>
        minute.bind fun n => Layout.readFrom? more
          { year := y, month := m, day := d, hour := h, minute := n } [] := by
  rw [h, Layout.read?, readFrom?_typedDate (endsDate_typedTime hour minute) hyear hmonth hday]
  simp only [readFrom?_typedTime hhour hminute]

omit hhour hminute in
/-- The mark between date and time is no blank and begins no hour. -/
theorem read?_typedDate_space (layout more : Layout)
    (h : layout = dateLayout ++ (.space :: .hour :: more)) :
    layout.read? (typedDate year month day (typedTime hour minute)) = none := by
  have htrim : Text.trimFront (typedTime hour minute) = typedTime hour minute :=
    Text.trimFront_of_head fun c hc => (endsDate_typedTime hour minute c hc).2.2
  have hhour : readPair? 0 23 (typedTime hour minute) = none := by
    rw [readPair?, htrim, readDigits?_ends (endsDate_typedTime hour minute).endsDigits]
    rfl
  have hspace : ∀ parts, Layout.readFrom? (.space :: .hour :: more) parts
      (typedTime hour minute) = none := by
    intro parts
    have hskip : LayoutPart.read? .space parts (typedTime hour minute) =
        some (parts, typedTime hour minute) := by
      rw [LayoutPart.read?, htrim]
    refine (Layout.readFrom?_of_read hskip).trans (Layout.readFrom?_of_read_none ?_)
    rw [LayoutPart.read?, hhour]
    rfl
  rw [h, Layout.read?, readFrom?_typedDate (endsDate_typedTime hour minute) hyear hmonth hday]
  simp only [hspace, Option.bind_fun_none]

/-- What is typed of a date-time denotes the moment of its parts, if they are all there. -/
theorem DateTime.ofText?_typed :
    DateTime.ofText? (String.ofList (typedDate year month day (typedTime hour minute))) =
      year.bind fun y => month.bind fun m => day.bind fun d => (Date.of? y m d).bind fun date =>
        hour.bind fun h => minute.bind fun n => (Time.of? h n 0).bind fun time =>
          some ⟨date, time⟩ := by
  have htrimmed : Text.trimmed
      (String.ofList (typedDate year month day (typedTime hour minute))).toList =
        typedDate year month day (typedTime hour minute) := by
    rw [String.toList_ofList]
    exact trimmed_of_not_blank fun c hc => (not_blank_of_mem_typedTime hc).1
  have hseconds : dateTimeLayout.read? (typedDate year month day (typedTime hour minute)) =
      none := by
    have hmissing : ∀ parts, Layout.readFrom? [.mark ':', .second] parts [] = none := fun _ => rfl
    rw [read?_typedDate_time hhour hminute hyear hmonth hday _ [.mark ':', .second]
      (show dateTimeLayout = _ from rfl)]
    simp only [hmissing, Option.bind_fun_none]
  have hinput : (inputLayout.read? (typedDate year month day (typedTime hour minute))).bind
      MomentParts.dateTime? = year.bind fun y => month.bind fun m => day.bind fun d =>
        (Date.of? y m d).bind fun date => hour.bind fun h => minute.bind fun n =>
          (Time.of? h n 0).bind fun time => some ⟨date, time⟩ := by
    rw [read?_typedDate_time hhour hminute hyear hmonth hday _ [] (show inputLayout = _ from rfl)]
    cases year with
    | none => rfl
    | some y =>
        cases month with
        | none => rfl
        | some m =>
            cases day with
            | none => rfl
            | some d =>
                cases hour <;> cases minute <;>
                  simp [Layout.readFrom?, MomentParts.dateTime?, MomentParts.date?]
  have hslash : Layout.read? (slashLayout ++ [.space] ++ minuteLayout)
      (typedDate year month day (typedTime hour minute)) = none :=
    Layout.read?_eq_none (show LayoutPart.mark '/' ∈ _ by decide)
      fun hmem => (not_blank_of_mem_typedTime hmem).2 rfl
  have hrange : ∀ moment ∈ year.bind fun y => month.bind fun m => day.bind fun d =>
      (Date.of? (y : Int) m d).bind fun date => hour.bind fun h => minute.bind fun n =>
        (Time.of? h n 0).bind fun time => some (DateTime.mk date time),
      moment.date.inAnswerRange = true := by
    intro moment hmoment
    obtain ⟨y, hy, hmoment⟩ := Option.bind_eq_some_iff.mp hmoment
    obtain ⟨m, -, hmoment⟩ := Option.bind_eq_some_iff.mp hmoment
    obtain ⟨d, -, hmoment⟩ := Option.bind_eq_some_iff.mp hmoment
    obtain ⟨date, hdate, hmoment⟩ := Option.bind_eq_some_iff.mp hmoment
    obtain ⟨h, -, hmoment⟩ := Option.bind_eq_some_iff.mp hmoment
    obtain ⟨n, -, hmoment⟩ := Option.bind_eq_some_iff.mp hmoment
    obtain ⟨time, -, hmoment⟩ := Option.bind_eq_some_iff.mp hmoment
    obtain rfl := Option.some.inj hmoment
    exact Date.inAnswerRange_of_of? (hyear y hy) hdate
  have hdaySeconds : Layout.read? (dateLayout ++ [.space] ++ secondLayout)
      (typedDate year month day (typedTime hour minute)) = none :=
    read?_typedDate_space hyear hmonth hday _ _ rfl
  have hdayMinutes : Layout.read? (dateLayout ++ [.space] ++ minuteLayout)
      (typedDate year month day (typedTime hour minute)) = none :=
    read?_typedDate_space hyear hmonth hday _ _ rfl
  simp only [ofText?, htrimmed, dateTimeLayouts, List.findSome?_cons, hseconds, hinput, hslash,
    hdaySeconds, hdayMinutes]
  generalize (year.bind fun y => month.bind fun m => day.bind fun d =>
    (Date.of? (y : Int) m d).bind fun date => hour.bind fun h => minute.bind fun n =>
      (Time.of? h n 0).bind fun time => some (DateTime.mk date time)) = found at hrange ⊢
  cases found with
  | none => rfl
  | some moment => simpa using hrange moment rfl

end

end Questionnaire
