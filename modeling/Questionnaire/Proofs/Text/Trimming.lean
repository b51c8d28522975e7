import Mathlib.Data.List.DropRight
import Questionnaire.Text.Blank

/-!
# Trimming

What trimming leaves has no blank character at either end, so trimming it again changes nothing
(`trim_trim`); it leaves nothing exactly when there is nothing but blanks (`trimmed_eq_nil_iff`).
-/

namespace Questionnaire.Text

theorem trimBack_eq_rdropWhile (cs : List Char) : trimBack cs = cs.rdropWhile isBlank := rfl

/-- A list that begins with a character that is not blank has nothing to drop in front. -/
theorem trimFront_of_head {cs : List Char} (h : ∀ c ∈ cs.head?, isBlank c = false) :
    trimFront cs = cs := by
  cases cs with
  | nil => rfl
  | cons c rest => simp [trimFront, h c rfl]

/-- What is left behind a run does not begin with what the run is made of. -/
theorem head?_dropWhile {p : Char → Bool} {cs : List Char} :
    ∀ c ∈ (cs.dropWhile p).head?, p c = false := by
  intro c hc
  have hfound := List.head?_dropWhile_not p cs
  rw [Option.mem_def.mp hc] at hfound
  simpa using hfound

theorem head?_trimFront {cs : List Char} : ∀ c ∈ (trimFront cs).head?, isBlank c = false :=
  head?_dropWhile

theorem trimFront_trimBack {cs : List Char} (h : ∀ c ∈ cs.head?, isBlank c = false) :
    trimFront (trimBack cs) = trimBack cs := by
  refine trimFront_of_head ?_
  intro c hc
  -- What is dropped at the end leaves a prefix, which begins as the whole does.
  obtain ⟨dropped, hdropped⟩ := List.rdropWhile_prefix isBlank cs
  rw [← trimBack_eq_rdropWhile] at hdropped
  cases hback : trimBack cs with
  | nil => simp [hback] at hc
  | cons first rest =>
      obtain rfl : first = c := by simpa [hback] using hc
      have hhead := congrArg List.head? hdropped
      rw [hback] at hhead
      exact h first hhead.symm

theorem trimBack_trimBack (cs : List Char) : trimBack (trimBack cs) = trimBack cs := by
  rw [trimBack_eq_rdropWhile, trimBack_eq_rdropWhile, List.rdropWhile_idempotent]

theorem trimmed_trimmed (cs : List Char) : trimmed (trimmed cs) = trimmed cs := by
  unfold trimmed
  rw [trimFront_trimBack head?_trimFront, trimBack_trimBack]

@[simp] theorem trim_trim (s : String) : trim (trim s) = trim s := by
  simp [trim, trimmed_trimmed]

theorem mem_dropWhile_iff {p : Char → Bool} {cs : List Char} {c : Char} (h : p c = false) :
    c ∈ cs.dropWhile p ↔ c ∈ cs := by
  induction cs with
  | nil => rfl
  | cons first rest ih =>
      by_cases hfirst : p first = true
      · have hne : c ≠ first := by
          rintro rfl
          exact absurd hfirst (by simp [h])
        rw [List.dropWhile_cons_of_pos hfirst, ih, List.mem_cons, or_iff_right hne]
      · rw [List.dropWhile_cons_of_neg hfirst]

/-- Trimming drops nothing but blanks. -/
theorem mem_trimmed_iff {cs : List Char} {c : Char} (h : isBlank c = false) :
    c ∈ trimmed cs ↔ c ∈ cs := by
  simp [trimmed, trimBack, trimFront, mem_dropWhile_iff h]

theorem trimmed_eq_nil_iff {cs : List Char} : trimmed cs = [] ↔ cs.all isBlank = true := by
  rw [List.all_eq_true]
  constructor
  · intro h c hc
    by_contra hblank
    have hmem := (mem_trimmed_iff (Bool.eq_false_iff.mpr hblank)).mpr hc
    rw [h] at hmem
    cases hmem
  · intro h
    simp only [trimmed, trimBack_eq_rdropWhile, List.rdropWhile_eq_nil_iff]
    exact fun c hc => h c ((List.dropWhile_suffix isBlank).subset hc)

/-- A text without a blank character at either end. -/
structure IsTrimmed (s : String) : Prop where
  first : ∀ c ∈ s.toList.head?, isBlank c = false
  last : ∀ c ∈ s.toList.getLast?, isBlank c = false

theorem isTrimmed_trim (s : String) : IsTrimmed (trim s) := by
  rw [trim]
  constructor
  · intro c hc
    rw [String.toList_ofList, trimmed, ← trimFront_trimBack head?_trimFront] at hc
    exact head?_trimFront c hc
  · intro c hc
    rw [String.toList_ofList, trimmed, trimBack_eq_rdropWhile] at hc
    obtain ⟨hne, rfl⟩ := List.mem_getLast?_eq_getLast hc
    simpa using List.rdropWhile_last_not isBlank _ hne

/-- What has no blank character at either end is left as it is. -/
theorem trimmed_of_ends {cs : List Char} (hfirst : ∀ c ∈ cs.head?, isBlank c = false)
    (hlast : ∀ c ∈ cs.getLast?, isBlank c = false) : trimmed cs = cs := by
  rw [trimmed, trimFront_of_head hfirst, trimBack_eq_rdropWhile]
  rcases List.eq_nil_or_concat cs with rfl | ⟨front, last, rfl⟩
  · rfl
  · have hlast : isBlank last = false := hlast last (by simp)
    rw [List.concat_eq_append, List.rdropWhile_concat_neg]
    simpa using hlast

end Questionnaire.Text
