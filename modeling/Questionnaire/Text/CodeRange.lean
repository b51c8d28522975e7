/-!
# Runs of code points

A class of characters as a table of the runs of code points that it has. The tables of this library
follow Unicode 17.
-/

namespace Questionnaire.Text

/-- A run of code points, both ends included. -/
abbrev CodeRange := Nat × Nat

/-- Whether some range holds the code point. -/
def inRanges (ranges : List CodeRange) (code : Nat) : Bool :=
  ranges.any fun range => range.1 ≤ code && code ≤ range.2

end Questionnaire.Text
