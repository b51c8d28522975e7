import Questionnaire.Expression.Basic
import Questionnaire.Number.Reading
import Questionnaire.Text.Letter

/-!
# Tokens of expressions

Splitting an expression's text into tokens. Blanks only separate tokens. Each token keeps the text it
was read from and where that starts, counted in bytes of the UTF-8 encoding; a single step of the
reader (`Scanned`) carries the proof that the token's text is what it took from the input.
-/

namespace Questionnaire

/-- A token. -/
inductive Token where
  | number (x : Extended64)
  | text (s : String)
  | word (s : String)
  | atSign
  | point
  | leftParen
  | rightParen
  | notSign
  | operator (op : Operator)
deriving DecidableEq

/-- A token as messages name it. -/
def Token.describe : Token → String
  | .number x => "number " ++ x.plain
  | .text s => "text '" ++ s ++ "'"
  | .word s => "identifier '" ++ s ++ "'"
  | .atSign => "'@'"
  | .point => "'.'"
  | .leftParen => "'('"
  | .rightParen => "')'"
  | .notSign => "'not'"
  | .operator op => "'" ++ op.symbol ++ "'"

/-- What is wrong with the text of an expression. -/
inductive ExpressionFault where
  | unclosedText
  | badNumber (literal : String)
  | badCharacter (c : Char)
  | trailing (token : Token)
  | unbalanced
  | noConditionName
  | noValue (token : Token)
  | endOfText
  | noFieldName
deriving DecidableEq

/-- The wording of a fault. -/
def ExpressionFault.message : ExpressionFault → String
  | .unclosedText => "unterminated string literal"
  | .badNumber literal => "invalid number '" ++ literal ++ "'"
  | .badCharacter c => "unexpected character '" ++ String.singleton c ++ "'"
  | .trailing token => "unexpected " ++ token.describe ++ " after end of expression"
  | .unbalanced => "unbalanced parenthesis"
  | .noConditionName => "expected a condition name after '@'"
  | .noValue token => "expected a value but found " ++ token.describe
  | .endOfText => "unexpected end of expression"
  | .noFieldName => "expected a field name after '.'"

/-- A fault and its position. -/
structure Malformed where
  position : Nat
  fault : ExpressionFault
deriving DecidableEq

/-- A token in place: what it was read from, and where. -/
structure Lexeme where
  token : Token
  text : List Char
  position : Nat
deriving DecidableEq

/-- The length of a text in bytes. -/
def byteLength (cs : List Char) : Nat :=
  cs.foldr (fun c length => c.utf8Size + length) 0

/-- A token taken from the front of an input: its text, and the rest. -/
structure Scanned (input : List Char) where
  token : Token
  text : List Char
  rest : List Char
  splits : text ++ rest = input
  nonempty : text ≠ []

theorem Scanned.shorter {input : List Char} (s : Scanned input) :
    s.rest.length < input.length := by
  have hpos := List.length_pos_iff.mpr s.nonempty
  have := congrArg List.length s.splits
  simp only [List.length_append] at this
  omega

/-! ## Text literals -/

/--
A text literal behind its opening quote: its value, what was read of it with the closing quote, and
the rest. A backslash stands for the character behind it.
-/
def textLiteral? (quote : Char) : List Char → Option (List Char × List Char × List Char)
  | [] => none
  | '\\' :: c :: rest =>
    (textLiteral? quote rest).map fun (value, used, rest) => (c :: value, '\\' :: c :: used, rest)
  | c :: rest =>
    if c = quote then some ([], [c], rest)
    else (textLiteral? quote rest).map fun (value, used, rest) => (c :: value, c :: used, rest)

theorem textLiteral?_splits {quote : Char} {input value used rest : List Char}
    (h : textLiteral? quote input = some (value, used, rest)) : used ++ rest = input := by
  fun_induction textLiteral? quote input generalizing value used rest with
  | case1 => simp at h
  | case2 c tail ih =>
    obtain ⟨⟨v, u, r⟩, hr, heq⟩ := Option.map_eq_some_iff.mp h
    simp only [Prod.mk.injEq] at heq
    obtain ⟨-, rfl, rfl⟩ := heq
    simp [ih hr]
  | case3 tail _ =>
    simp only [Option.some.injEq, Prod.mk.injEq] at h
    obtain ⟨-, rfl, rfl⟩ := h
    rfl
  | case4 c tail _ _ ih =>
    obtain ⟨⟨v, u, r⟩, hr, heq⟩ := Option.map_eq_some_iff.mp h
    simp only [Prod.mk.injEq] at heq
    obtain ⟨-, rfl, rfl⟩ := heq
    simp [ih hr]

/-! ## Words and numbers -/

/-- The characters that can begin a word. -/
def isWordStart (c : Char) : Bool :=
  Text.isLetter c || c == '_' || c == '$'

/-- The characters that can continue a word. -/
def isWordPart (c : Char) : Bool :=
  Text.isAlphanumeric c || c == '_'

/-- The characters that can continue a number. -/
def isNumberPart (c : Char) : Bool :=
  c.isDigit || c == '.'

/-- Whether a text goes on with a digit. -/
def startsWithDigit (cs : List Char) : Bool :=
  cs.head?.any Char.isDigit

/-- The token of a word. A dollar sign in front does not belong to the name. -/
def wordToken (word : List Char) : Token :=
  match String.ofList word with
  | "and" => .operator .and
  | "or" => .operator .or
  | "not" => .notSign
  | "in" => .operator .member
  | _ => .word (String.ofList (word.dropWhile (· == '$')))

/-! ## One token -/

/-- A token of one character. -/
def Scanned.single (token : Token) (c : Char) (rest : List Char) : Scanned (c :: rest) :=
  ⟨token, [c], rest, rfl, by simp⟩

/-- A token that begins with one character and goes on with those that satisfy a test. -/
def Scanned.run (token : List Char → Token) (p : Char → Bool) (c : Char) (rest : List Char) :
    Scanned (c :: rest) :=
  ⟨token (c :: rest.takeWhile p), c :: rest.takeWhile p, rest.dropWhile p,
    by simp, by simp⟩

/-- The number that begins with a character. -/
def scanNumber (c : Char) (rest : List Char) : Except ExpressionFault (Scanned (c :: rest)) :=
  let literal := c :: rest.takeWhile isNumberPart
  match DecimalNotation.ofChars? literal with
  | some d => .ok (Scanned.run (fun _ => .number d.nearest) isNumberPart c rest)
  | none => .error (.badNumber (String.ofList literal))

/-- The text literal behind an opening quote. -/
def scanText (quote : Char) (rest : List Char) : Except ExpressionFault (Scanned (quote :: rest)) :=
  match h : textLiteral? quote rest with
  | some (value, used, rest') =>
    .ok ⟨.text (String.ofList value), quote :: used, rest', by
      simp [textLiteral?_splits h], by simp⟩
  | none => .error .unclosedText

/-- The token that begins with a character which is not blank. -/
def scan (c : Char) (rest : List Char) : Except ExpressionFault (Scanned (c :: rest)) :=
  match c, rest with
  | '(', rest => .ok (.single .leftParen '(' rest)
  | ')', rest => .ok (.single .rightParen ')' rest)
  | '@', rest => .ok (.single .atSign '@' rest)
  | '=', '=' :: '=' :: rest => .ok ⟨.operator .equal, ['=', '=', '='], rest, rfl, by simp⟩
  | '=', '=' :: rest => .ok ⟨.operator .equal, ['=', '='], rest, rfl, by simp⟩
  | '!', '=' :: '=' :: rest => .ok ⟨.operator .notEqual, ['!', '=', '='], rest, rfl, by simp⟩
  | '!', '=' :: rest => .ok ⟨.operator .notEqual, ['!', '='], rest, rfl, by simp⟩
  | '!', rest => .ok (.single .notSign '!' rest)
  | '>', '=' :: rest => .ok ⟨.operator .greaterOrEqual, ['>', '='], rest, rfl, by simp⟩
  | '>', rest => .ok (.single (.operator .greater) '>' rest)
  | '<', '=' :: rest => .ok ⟨.operator .lessOrEqual, ['<', '='], rest, rfl, by simp⟩
  | '<', rest => .ok (.single (.operator .less) '<' rest)
  | '&', '&' :: rest => .ok ⟨.operator .and, ['&', '&'], rest, rfl, by simp⟩
  | '|', '|' :: rest => .ok ⟨.operator .or, ['|', '|'], rest, rfl, by simp⟩
  | '\'', rest => scanText '\'' rest
  | '"', rest => scanText '"' rest
  | c, rest =>
    if c = '.' ∧ !startsWithDigit rest then .ok (.single .point c rest)
    else if c.isDigit ∨ c = '.' ∨ (c = '-' ∧ startsWithDigit rest) then scanNumber c rest
    else if isWordStart c then .ok (.run wordToken isWordPart c rest)
    else .error (.badCharacter c)

/-! ## All tokens -/

/-- The tokens of a text that starts at a position. -/
def tokensFrom (position : Nat) (cs : List Char) : Except Malformed (List Lexeme) :=
  match cs with
  | [] => .ok []
  | c :: rest =>
    if Text.isBlank c then tokensFrom (position + c.utf8Size) rest
    else
      match scan c rest with
      | .error fault => .error ⟨position, fault⟩
      | .ok s =>
        match tokensFrom (position + byteLength s.text) s.rest with
        | .error e => .error e
        | .ok lexemes => .ok (⟨s.token, s.text, position⟩ :: lexemes)
termination_by cs.length
decreasing_by
  · simp
  · exact s.shorter

/-- The tokens of a text. -/
def tokens (source : String) : Except Malformed (List Lexeme) :=
  tokensFrom 0 source.toList

end Questionnaire
