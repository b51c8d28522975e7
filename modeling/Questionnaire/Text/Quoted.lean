import Questionnaire.Text.Hidden

/-!
# Quoted texts

A text between double quotes, in one line and with nothing hidden, for logs. A quote and a
backslash are escaped, as are the line characters; a hidden character is written by its code point.
-/

namespace Questionnaire.Text

/-- A character inside quotes. -/
def quotedChar (c : Char) : String :=
  if c = '"' then "\\\"" else if c = '\\' then "\\\\"
  else if c = '\n' then "\\n" else if c = '\r' then "\\r" else if c = '\t' then "\\t"
  else if c.toNat = 0 then "\\0"
  else if isHidden c then
    "\\u\x7b" ++ String.ofList (Nat.toDigits 16 c.toNat) ++ "\x7d"
  else String.singleton c

/-- A text in quotes. -/
def quoted (s : String) : String :=
  "\"" ++ String.join (s.toList.map quotedChar) ++ "\""

end Questionnaire.Text
