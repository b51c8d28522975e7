import Questionnaire.Json.Numeral
import Questionnaire.Text.Reading

/-!
# Reading JSON text

`Json.parse?` reads a whole text as one value. Objects come out in key order, and of two members
with one key the later stays. Nesting is limited to 127 arrays and objects, and numbers are those
that `Numeral.value?` gives; the reader itself (`Json.readWith?`) does not depend on either. Each
step of it returns what is left with a proof that it is shorter, which is why reading ends.
-/

namespace Questionnaire

namespace Json

/-- The characters allowed between the parts of a value. -/
def isSpace (c : Char) : Bool :=
  c = ' ' || c = '\n' || c = '\t' || c = '\r'

/-- Drops the space in front. -/
def skipSpace (cs : List Char) : List Char :=
  cs.dropWhile isSpace

theorem length_dropWhile_le {p : Char → Bool} (cs : List Char) :
    (cs.dropWhile p).length ≤ cs.length :=
  (List.dropWhile_sublist p).length_le

theorem length_skipSpace_le (cs : List Char) : (skipSpace cs).length ≤ cs.length :=
  length_dropWhile_le cs

/-! ## Strings -/

/-- The value of a hexadecimal digit. -/
def hexDigit? (c : Char) : Option Nat :=
  if c.isDigit then some (c.toNat - 48)
  else if 'a' ≤ c ∧ c ≤ 'f' then some (c.toNat - 87)
  else if 'A' ≤ c ∧ c ≤ 'F' then some (c.toNat - 55)
  else none

/-- The value of four hexadecimal digits. -/
def hexUnit? (a b c d : Char) : Option Nat := do
  let a ← hexDigit? a
  let b ← hexDigit? b
  let c ← hexDigit? c
  let d ← hexDigit? d
  pure (((a * 16 + b) * 16 + c) * 16 + d)

/-- The character that stands behind a backslash. -/
def escaped? (c : Char) : Option Char :=
  match c with
  | '"' => some '"'
  | '\\' => some '\\'
  | '/' => some '/'
  | 'b' => some '\x08'
  | 'f' => some '\x0c'
  | 'n' => some '\n'
  | 'r' => some '\r'
  | 't' => some '\t'
  | _ => none

/--
The rest of a string behind its opening quote. Control characters must be escaped, and surrogate
code units must come in pairs.
-/
def stringBody : (cs : List Char) → (read : List Char) → Option (Reading String cs)
  | [], _ => none
  | '"' :: rest, read => some ⟨String.ofList read.reverse, rest, Nat.lt_succ_self _⟩
  | '\\' :: 'u' :: a :: b :: c :: d :: rest, read =>
    match hexUnit? a b c d with
    | none => none
    | some unit =>
      if 0xDC00 ≤ unit ∧ unit ≤ 0xDFFF then none
      else if 0xD800 ≤ unit ∧ unit ≤ 0xDBFF then
        match rest with
        | '\\' :: 'u' :: e :: f :: g :: h :: rest' =>
          match hexUnit? e f g h with
          | none => none
          | some low =>
            if 0xDC00 ≤ low ∧ low ≤ 0xDFFF then
              let code := 0x10000 + (unit - 0xD800) * 0x400 + (low - 0xDC00)
              (stringBody rest' (Char.ofNat code :: read)).map
                (Reading.widen · (by simp only [List.length_cons]; omega))
            else none
        | _ => none
      else
        (stringBody rest (Char.ofNat unit :: read)).map
          (Reading.widen · (by simp only [List.length_cons]; omega))
  | '\\' :: c :: rest, read =>
    match escaped? c with
    | none => none
    | some c' =>
      (stringBody rest (c' :: read)).map
        (Reading.widen · (by simp only [List.length_cons]; omega))
  | c :: rest, read =>
    if c.toNat < 0x20 ∨ c = '\\' then none
    else
      (stringBody rest (c :: read)).map
        (Reading.widen · (by simp only [List.length_cons]; omega))
termination_by cs => cs.length

/-! ## Numbers -/

/-- The fraction behind a point, which must have a digit. -/
def fractionPart? : List Char → Option (Option (List Char) × List Char)
  | '.' :: rest =>
    if (rest.takeWhile Char.isDigit).isEmpty then none
    else some (some (rest.takeWhile Char.isDigit), rest.dropWhile Char.isDigit)
  | cs => some (none, cs)

/-- The exponent behind its letter, which must have a digit. -/
def powerPart? : List Char → Option (Option (Bool × List Char) × List Char)
  | [] => some (none, [])
  | c :: rest =>
    if c = 'e' ∨ c = 'E' then
      let (negative, body) := splitSign rest
      if (body.takeWhile Char.isDigit).isEmpty then none
      else some (some (negative, body.takeWhile Char.isDigit), body.dropWhile Char.isDigit)
    else some (none, c :: rest)

/-- A number behind its sign, and the rest. A leading zero stands alone before the point. -/
def numeral? (negative : Bool) (cs : List Char) : Option (Numeral × List Char) := do
  let whole := cs.takeWhile Char.isDigit
  let leadingZero := whole.head? == some '0' && whole.length ≠ 1
  if whole.isEmpty || leadingZero then none
  let (fraction, rest) ← fractionPart? (cs.dropWhile Char.isDigit)
  let (exponent, rest) ← powerPart? rest
  pure (⟨negative, whole, fraction, exponent⟩, rest)

section

variable (read : Numeral → Option Number)

/-- A number at the front of a text. -/
def number? (cs : List Char) : Option (Reading Json cs) := do
  let (numeral, rest) ←
    match cs with
    | '-' :: body => numeral? true body
    | body => numeral? false body
  let value ← read numeral
  if h : rest.length < cs.length then pure ⟨.num value, rest, h⟩ else none

/-! ## Values -/

/-- The rest behind a word, if the text begins with it. -/
def word? (word : List Char) (cs : List Char) : Option (List Char) :=
  if word.isPrefixOf cs then some (cs.drop word.length) else none

mutual

/-- A value at the front of a text, with at most `depth` arrays and objects in one another. -/
def valueAt (depth : Nat) (cs : List Char) : Option (Reading Json cs) :=
  match cs with
  | '"' :: rest =>
    (stringBody rest []).map fun r => ⟨.str r.value, r.rest, Nat.lt_succ_of_lt r.shorter⟩
  | '[' :: rest =>
    match depth with
    | 0 => none
    | depth + 1 =>
      match hs : skipSpace rest with
      | ']' :: rest' =>
        some ⟨.arr [], rest', by
          have := length_skipSpace_le rest
          simp only [hs, List.length_cons] at this ⊢
          omega⟩
      | _ => (itemsAt depth rest).map fun r => ⟨.arr r.value, r.rest, Nat.lt_succ_of_lt r.shorter⟩
  | '\x7b' :: rest =>
    match depth with
    | 0 => none
    | depth + 1 =>
      match hs : skipSpace rest with
      | '\x7d' :: rest' =>
        some ⟨.obj [], rest', by
          have := length_skipSpace_le rest
          simp only [hs, List.length_cons] at this ⊢
          omega⟩
      | _ =>
        (membersAt depth rest).map fun r =>
          ⟨.obj (Fields.ofList r.value), r.rest, Nat.lt_succ_of_lt r.shorter⟩
  | 'n' :: rest =>
    (word? ['u', 'l', 'l'] rest).bind fun rest' =>
      if h : rest'.length < (rest.length + 1) then some ⟨.null, rest', h⟩ else none
  | 't' :: rest =>
    (word? ['r', 'u', 'e'] rest).bind fun rest' =>
      if h : rest'.length < (rest.length + 1) then some ⟨.bool true, rest', h⟩ else none
  | 'f' :: rest =>
    (word? ['a', 'l', 's', 'e'] rest).bind fun rest' =>
      if h : rest'.length < (rest.length + 1) then some ⟨.bool false, rest', h⟩ else none
  | cs => number? read cs
termination_by 2 * cs.length

/-- The items of an array from some item on, up to the closing bracket. -/
def itemsAt (depth : Nat) (cs : List Char) : Option (Reading (List Json) cs) :=
  match valueAt depth (skipSpace cs) with
  | none => none
  | some item =>
    match hs : skipSpace item.rest with
    | ']' :: rest =>
      some ⟨[item.value], rest, by
        have h₁ := length_skipSpace_le cs
        have h₂ := length_skipSpace_le item.rest
        have h₃ := item.shorter
        simp only [hs, List.length_cons] at h₂
        omega⟩
    | ',' :: rest =>
      have hlt : rest.length < cs.length := by
        have h₁ := length_skipSpace_le cs
        have h₂ := length_skipSpace_le item.rest
        have h₃ := item.shorter
        simp only [hs, List.length_cons] at h₂
        omega
      (itemsAt depth rest).map fun r =>
        ⟨item.value :: r.value, r.rest, Nat.lt_trans r.shorter hlt⟩
    | _ => none
termination_by 2 * cs.length + 1
decreasing_by
  · have := length_skipSpace_le cs
    omega
  · omega

/-- The members of an object from some member on, up to the closing brace. -/
def membersAt (depth : Nat) (cs : List Char) : Option (Reading (List (String × Json)) cs) :=
  match hc : skipSpace cs with
  | '"' :: afterQuote =>
    match stringBody afterQuote [] with
    | none => none
    | some key =>
      match hk : skipSpace key.rest with
      | ':' :: afterColon =>
        have hcolon : (skipSpace afterColon).length < cs.length := by
          have h₁ := length_skipSpace_le cs
          have h₂ := length_skipSpace_le key.rest
          have h₃ := key.shorter
          have h₄ := length_skipSpace_le afterColon
          simp only [hc, hk, List.length_cons] at h₁ h₂
          omega
        match valueAt depth (skipSpace afterColon) with
        | none => none
        | some item =>
          match hs : skipSpace item.rest with
          | '\x7d' :: rest =>
            some ⟨[(key.value, item.value)], rest, by
              have h₂ := length_skipSpace_le item.rest
              have h₃ := item.shorter
              simp only [hs, List.length_cons] at h₂
              omega⟩
          | ',' :: rest =>
            have hlt : rest.length < cs.length := by
              have h₂ := length_skipSpace_le item.rest
              have h₃ := item.shorter
              simp only [hs, List.length_cons] at h₂
              omega
            (membersAt depth rest).map fun r =>
              ⟨(key.value, item.value) :: r.value, r.rest, Nat.lt_trans r.shorter hlt⟩
          | _ => none
      | _ => none
  | _ => none
termination_by 2 * cs.length + 1

end

/-- Reads a text as one value, with at most `depth` arrays and objects in one another, where `read`
gives the number that a numeral stands for. -/
def readWith? (depth : Nat) (s : String) : Option Json :=
  (valueAt read depth (skipSpace s.toList)).bind fun r =>
    if (skipSpace r.rest).isEmpty then some r.value else none

end

/-- The deepest nesting of arrays and objects that is read. -/
def depthLimit : Nat := 127

/-- Reads a text as one value. -/
def parse? (s : String) : Option Json :=
  readWith? Numeral.value? depthLimit s

end Json

end Questionnaire
