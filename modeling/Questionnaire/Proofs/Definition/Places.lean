import Mathlib.Data.List.Basic
import Questionnaire.Definition.Structure
import Questionnaire.Proofs.Text.Digits

/-!
# Places as text

Issues are reported with their places written out, `lists[0].items[2]`. A place is at or under
another when its text is the other's, or goes on from it by a dot or a bracket. For the elements of
arrays whose names have no bracket this is so for the parts of the element and for nothing else
(`Place.leadsTo_element_iff`): the index is closed by a bracket, so `pages[1]` does not lead to
`pages[12]`.
-/

namespace Questionnaire

namespace Place

/-- A text that may follow the text of a place: nothing, or one that begins a further step. -/
def FurtherSteps (tail : List Char) : Prop :=
  ∀ c ∈ tail.head?, c = '.' ∨ c = '['

/-- Whether a text of a place is another or goes on from it. -/
def leadsTo (outer inner : String) : Bool :=
  outer == inner || ((outer ++ ".").toList.isPrefixOf inner.toList ||
    (outer ++ "[").toList.isPrefixOf inner.toList)

theorem leadsTo_iff {outer inner : String} :
    leadsTo outer inner = true ↔
      ∃ tail, inner.toList = outer.toList ++ tail ∧ FurtherSteps tail := by
  simp only [leadsTo, Bool.or_eq_true, beq_iff_eq, List.isPrefixOf_iff_prefix,
    String.toList_append]
  constructor
  · rintro (rfl | ⟨rest, hrest⟩ | ⟨rest, hrest⟩)
    · exact ⟨[], (List.append_nil _).symm, nofun⟩
    · exact ⟨'.' :: rest, by rw [← hrest]; simp, by simp [FurtherSteps]⟩
    · exact ⟨'[' :: rest, by rw [← hrest]; simp, by simp [FurtherSteps]⟩
  · rintro ⟨tail, htail, hfurther⟩
    cases tail with
    | nil => exact .inl (String.toList_injective (by simpa using htail.symm))
    | cons c rest =>
        rcases hfurther c rfl with rfl | rfl
        · exact .inr (.inl ⟨rest, by rw [htail]; simp⟩)
        · exact .inr (.inr ⟨rest, by rw [htail]; simp⟩)

/-! ## Steps -/

theorem toList_extend {text : String} (h : text ≠ "") (step : Step) :
    ∃ tail, (step.extend text).toList = text.toList ++ tail ∧ tail ≠ [] ∧ FurtherSteps tail := by
  cases step with
  | key name =>
      exact ⟨'.' :: name.toList, by simp [Step.extend, h], by simp, by simp [FurtherSteps]⟩
  | index i =>
      exact ⟨'[' :: ((toString i).toList ++ [']']), by simp [Step.extend], by simp,
        by simp [FurtherSteps]⟩

/-- The text of a place under another goes on from the other's. -/
theorem toList_foldl_extend (rest : Place) : ∀ {text : String}, text ≠ "" →
    ∃ tail, (rest.foldl Step.extend text).toList = text.toList ++ tail ∧ FurtherSteps tail := by
  induction rest with
  | nil => exact fun {text} _ => ⟨[], (List.append_nil _).symm, nofun⟩
  | cons step rest ih =>
      intro text h
      obtain ⟨first, hfirst, hne, hfurther⟩ := toList_extend h step
      have hextended : step.extend text ≠ "" := by
        intro hempty
        rw [hempty] at hfirst
        exact hne (List.append_eq_nil_iff.mp hfirst.symm).2
      obtain ⟨tail, htail, -⟩ := ih hextended
      refine ⟨first ++ tail, by rw [List.foldl_cons, htail, hfirst, List.append_assoc], ?_⟩
      cases first with
      | nil => exact absurd rfl hne
      | cons c more => exact hfurther

/-! ## Elements of arrays -/

/-- Texts up to the first occurrence of a character are told apart by it. -/
theorem eq_of_append_cons {c : Char} {cs ds rest rest' : List Char} (hcs : c ∉ cs) (hds : c ∉ ds)
    (h : cs ++ c :: rest = ds ++ c :: rest') : cs = ds ∧ rest = rest' := by
  induction cs generalizing ds with
  | nil =>
      cases ds with
      | nil => exact ⟨rfl, (List.cons.inj h).2⟩
      | cons d ds => exact absurd ((List.cons.inj h).1 ▸ List.mem_cons_self ..) hds
  | cons first cs ih =>
      cases ds with
      | nil => exact absurd ((List.cons.inj h).1 ▸ List.mem_cons_self ..) hcs
      | cons d ds =>
          obtain ⟨rfl, hrest⟩ := List.cons.inj h
          obtain ⟨rfl, hsame⟩ := ih (fun hc => hcs (List.mem_cons_of_mem _ hc))
            (fun hc => hds (List.mem_cons_of_mem _ hc)) hrest
          exact ⟨rfl, hsame⟩

/-- The place of an element of an array of the definition. -/
def element (array : String) (i : Nat) : Place :=
  [.key array, .index i]

theorem toList_text_element (array : String) (i : Nat) :
    (element array i).text.toList = array.toList ++ '[' :: ((toString i).toList ++ [']']) := by
  simp [element, text, Step.extend]

section

variable {array other : String} (harray : '[' ∉ array.toList) (hother : '[' ∉ other.toList)

include harray hother

/-- The text of an element leads to those of its own parts, and to those of no other element. -/
theorem leadsTo_element_iff {i j : Nat} (rest : Place) :
    leadsTo (element array i).text (element other j ++ rest).text = true ↔
      array = other ∧ i = j := by
  have hbracket : ∀ n : Nat, ']' ∉ (toString n).toList :=
    fun n hmem => absurd (isDigit_of_mem_toString _ hmem) (by decide)
  have hne : (element other j).text ≠ "" := by
    intro hempty
    simpa [hempty] using toList_text_element other j
  obtain ⟨tail', htail', hfurther'⟩ := toList_foldl_extend rest hne
  have hinner : (element other j ++ rest).text.toList = (element other j).text.toList ++ tail' := by
    rw [← htail']
    simp [text]
  rw [leadsTo_iff, hinner]
  constructor
  · rintro ⟨tail, htail, -⟩
    simp only [toList_text_element, List.append_assoc, List.cons_append, List.nil_append] at htail
    obtain ⟨hname, hindex⟩ := eq_of_append_cons hother harray htail
    obtain ⟨hdigits, -⟩ := eq_of_append_cons (hbracket j) (hbracket i) hindex
    refine ⟨(String.toList_injective hname).symm, ?_⟩
    rw [← digitsValue_toString i, ← digitsValue_toString j, hdigits]
  · rintro ⟨rfl, rfl⟩
    exact ⟨tail', rfl, hfurther'⟩

omit harray in
theorem not_leadsTo_array (i : Nat) :
    leadsTo (element array i).text (text [.key other]) = false := by
  have htext : text [.key other] = other := by simp [text, Step.extend]
  rw [← Bool.not_eq_true, leadsTo_iff, toList_text_element, htext]
  rintro ⟨tail, htail, -⟩
  exact hother (by simp [htail])

end

end Place

end Questionnaire
