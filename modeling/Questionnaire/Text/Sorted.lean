/-!
# Sorted texts

Texts in the order of their characters' code points, for the lists of names that reports show.
Sorting keeps the members (`mem_sorted`, `mem_sortedUnique`).
-/

namespace Questionnaire.Text

/-- The texts in order. -/
def sorted (texts : List String) : List String :=
  texts.mergeSort fun s t => !(t < s)

/-- The texts in order, each once. -/
def sortedUnique (texts : List String) : List String :=
  sorted texts.eraseDups

theorem mem_sorted {s : String} {texts : List String} : s ∈ sorted texts ↔ s ∈ texts :=
  List.mem_mergeSort

theorem mem_sortedUnique {s : String} {texts : List String} :
    s ∈ sortedUnique texts ↔ s ∈ texts := by
  rw [sortedUnique, mem_sorted, List.mem_eraseDups]

end Questionnaire.Text
