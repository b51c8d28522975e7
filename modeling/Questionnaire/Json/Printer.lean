import Questionnaire.Json.Basic
import Questionnaire.Number.Printing

/-!
# Writing JSON text

Two layouts of the same text: `Json.compress` on one line without spaces, and `Json.pretty` with one
item to a line and an indentation of two spaces.
-/

namespace Questionnaire

/-- The digits of a number below 16, in lower case. -/
def hexDigit (n : Nat) : Char :=
  if n < 10 then Char.ofNat (n + 48) else Char.ofNat (n + 87)

namespace Json

/-- A character inside a string: quotes, backslashes and control characters are escaped. -/
def escapeChar (c : Char) : List Char :=
  if c = '"' then ['\\', '"']
  else if c = '\\' then ['\\', '\\']
  else if c = '\x08' then ['\\', 'b']
  else if c = '\x0c' then ['\\', 'f']
  else if c = '\n' then ['\\', 'n']
  else if c = '\r' then ['\\', 'r']
  else if c = '\t' then ['\\', 't']
  else if c.toNat < 0x20 then
    ['\\', 'u', '0', '0', hexDigit (c.toNat / 16), hexDigit (c.toNat % 16)]
  else [c]

/-- A string in quotes. -/
def quote (s : String) : String :=
  "\"" ++ String.ofList (s.toList.flatMap escapeChar) ++ "\""

end Json

/-- A number as JSON writes it. -/
def Number.text : Number → String
  | .int i _ => toString i
  | .float x => x.marked

mutual

/-- The value on one line, without spaces. -/
def Json.compress : Json → String
  | .null => "null"
  | .bool b => if b then "true" else "false"
  | .num n => n.text
  | .str s => Json.quote s
  | .arr items => "[" ++ String.intercalate "," (compressItems items) ++ "]"
  | .obj fields => "\x7b" ++ String.intercalate "," (compressFields fields) ++ "\x7d"

/-- `Json.compress` of every item. -/
def compressItems : List Json → List String
  | [] => []
  | item :: rest => item.compress :: compressItems rest

/-- Every member as key, colon and value. -/
def compressFields : List (String × Json) → List String
  | [] => []
  | (key, value) :: rest => (Json.quote key ++ ":" ++ value.compress) :: compressFields rest

end

/-- Parts on lines of their own between two brackets; with no parts the brackets stand together. -/
def bracketed (opening closing margin : String) (parts : List String) : String :=
  if parts.isEmpty then opening ++ closing
  else
    opening ++ "\n" ++ String.intercalate ",\n" (parts.map (margin ++ "  " ++ ·)) ++
      "\n" ++ margin ++ closing

mutual

/-- The value over several lines, behind a left margin. -/
def Json.prettyFrom (margin : String) : Json → String
  | .null => "null"
  | .bool b => if b then "true" else "false"
  | .num n => n.text
  | .str s => Json.quote s
  | .arr items => bracketed "[" "]" margin (prettyItems (margin ++ "  ") items)
  | .obj fields => bracketed "\x7b" "\x7d" margin (prettyFields (margin ++ "  ") fields)

/-- `Json.prettyFrom` of every item. -/
def prettyItems (margin : String) : List Json → List String
  | [] => []
  | item :: rest => item.prettyFrom margin :: prettyItems margin rest

/-- Every member as key, colon, space and value. -/
def prettyFields (margin : String) : List (String × Json) → List String
  | [] => []
  | (key, value) :: rest =>
    (Json.quote key ++ ": " ++ value.prettyFrom margin) :: prettyFields margin rest

end

/-- The value over several lines. -/
def Json.pretty (j : Json) : String :=
  j.prettyFrom ""

end Questionnaire
