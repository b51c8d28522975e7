/-!
# Reading from the front

What a reader gives back: a value, and the rest of its input with a proof that something was
consumed. Recursive readers end because the rest is shorter.
-/

namespace Questionnaire

/-- A value read from the front of a list, and the shorter rest of the list. -/
structure Reading {τ : Type} (α : Type) (input : List τ) where
  value : α
  rest : List τ
  shorter : rest.length < input.length

namespace Reading

variable {τ α β : Type} {input : List τ}

/-- The same reading, seen from a longer input. -/
def widen {longer : List τ} (r : Reading α input) (h : input.length ≤ longer.length) :
    Reading α longer :=
  ⟨r.value, r.rest, Nat.lt_of_lt_of_le r.shorter h⟩

/-- The reading with its value changed. -/
def map (f : α → β) (r : Reading α input) : Reading β input :=
  ⟨f r.value, r.rest, r.shorter⟩

end Reading

end Questionnaire
