import Questionnaire.Text.Pattern

/-!
# Postcodes

Bringing a typed postcode into its normal form: trimmed, and in capitals.
-/

namespace Questionnaire.Postcode

/--
The capital form of a character, for the characters whose capitals are all among A to Z. Every other
character stays, since no postcode contains it.
-/
def capitals (c : Char) : List Char :=
  if 'a' ≤ c ∧ c ≤ 'z' then [c.toUpper]
  else
    match c with
    | 'ſ' => ['S']
    | 'ı' => ['I']
    | 'ß' => ['S', 'S']
    | 'ﬀ' => ['F', 'F']
    | 'ﬁ' => ['F', 'I']
    | 'ﬂ' => ['F', 'L']
    | 'ﬃ' => ['F', 'F', 'I']
    | 'ﬄ' => ['F', 'F', 'L']
    | 'ﬅ' => ['S', 'T']
    | 'ﬆ' => ['S', 'T']
    | _ => [c]

/-- The postcode without blanks around it, in capitals. -/
def capitalised (text : String) : String :=
  String.ofList ((Text.trimmed text.toList).flatMap capitals)

/-- The normal form of a postcode, if the text is one. -/
def normalise? (text : String) : Option String :=
  if Text.Pattern.postcode.accepts (capitalised text) then some (capitalised text) else none

/-- The wording for a text that is no postcode. -/
def invalidMessage (text : String) : String :=
  "Postcode '" ++ text ++ "' is not a valid UK postcode"

end Questionnaire.Postcode
