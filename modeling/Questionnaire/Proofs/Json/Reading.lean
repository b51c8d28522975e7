import Questionnaire.Json.Fields
import Questionnaire.Proofs.Json.Numerals

/-!
# Reading JSON text from the front

A reading takes a value from the front of a text and leaves the rest (`Gives`). Each kind of value is
read of what is written of it: a string of its characters behind their escapes (`gives_quoted`), a
number of its numeral (`gives_num`), and arrays and objects item by item and member by member
(`gives_items`, `gives_members`), whatever numbers the reader makes of numerals.
-/

namespace Questionnaire

/-- A reading gives a value, and leaves a rest. -/
def Gives {α : Type} {cs : List Char} (reading : Option (Reading α cs)) (value : α)
    (rest : List Char) : Prop :=
  ∃ h, reading = some ⟨value, rest, h⟩

namespace Json

theorem Gives.widen {α : Type} {cs longer : List Char} {reading : Option (Reading α cs)} {value : α}
    {rest : List Char} (h : Gives reading value rest) (hle : cs.length ≤ longer.length) :
    Gives (reading.map fun r => (r.widen hle : Reading α longer)) value rest := by
  obtain ⟨hless, rfl⟩ := h
  exact ⟨_, rfl⟩

theorem hexDigit?_hexDigit : ∀ n < 16, hexDigit? (hexDigit n) = some n := by decide

theorem hexUnit?_code {n : Nat} (h : n < 256) :
    hexUnit? '0' '0' (hexDigit (n / 16)) (hexDigit (n % 16)) = some n := by
  have hzero : hexDigit? '0' = some 0 := rfl
  rw [hexUnit?, hzero, hexDigit?_hexDigit _ (by omega), hexDigit?_hexDigit _ (by omega)]
  simp only [Option.bind_eq_bind, Option.bind_some, Option.pure_def, Option.some.injEq]
  omega

/-- A character in a string is written behind a backslash by a letter, by its code, or as it is. -/
theorem escapeChar_cases (c : Char) :
    (∃ letter, letter ≠ 'u' ∧ escaped? letter = some c ∧ escapeChar c = ['\\', letter]) ∨
    (c.toNat < 0x20 ∧ escapeChar c =
      ['\\', 'u', '0', '0', hexDigit (c.toNat / 16), hexDigit (c.toNat % 16)]) ∨
    (¬ c.toNat < 0x20 ∧ c ≠ '"' ∧ c ≠ '\\' ∧ escapeChar c = [c]) := by
  by_cases hletter : c ∈ ['"', '\\', '\x08', '\x0c', '\n', '\r', '\t']
  · simp only [List.mem_cons, List.not_mem_nil, or_false] at hletter
    obtain rfl | rfl | rfl | rfl | rfl | rfl | rfl := hletter <;>
      exact .inl ⟨_, by decide, by decide, rfl⟩
  · simp only [List.mem_cons, List.not_mem_nil, or_false, not_or] at hletter
    obtain ⟨hquote, hslash, hb, hf, hn, hr, ht⟩ := hletter
    by_cases hcontrol : c.toNat < 0x20
    · exact .inr (.inl ⟨hcontrol, by
        simp only [escapeChar, hquote, hslash, hb, hf, hn, hr, ht, hcontrol, if_true, if_false]⟩)
    · exact .inr (.inr ⟨hcontrol, hquote, hslash, by
        simp only [escapeChar, hquote, hslash, hb, hf, hn, hr, ht, hcontrol, if_false]⟩)

theorem gives_stringBody_escapeChar {c : Char} {rest read tail : List Char} {value : String}
    (h : Gives (stringBody rest (c :: read)) value tail) :
    Gives (stringBody (escapeChar c ++ rest) read) value tail := by
  rcases escapeChar_cases c with ⟨letter, hne, hescaped, hchar⟩ | ⟨hcontrol, hchar⟩ |
    ⟨hcontrol, hquote, hslash, hchar⟩
  · rw [hchar]
    show Gives (stringBody ('\\' :: letter :: rest) read) value tail
    rw [stringBody, hescaped]
    · exact Gives.widen h _
    · rintro a b c d rest rfl
      exact absurd rfl hne
  · rw [hchar]
    show Gives (stringBody ('\\' :: 'u' :: '0' :: '0' :: hexDigit (c.toNat / 16) ::
      hexDigit (c.toNat % 16) :: rest) read) value tail
    have hlow : ¬ (0xDC00 ≤ c.toNat ∧ c.toNat ≤ 0xDFFF) := by omega
    have hhigh : ¬ (0xD800 ≤ c.toNat ∧ c.toNat ≤ 0xDBFF) := by omega
    rw [stringBody, hexUnit?_code (by omega)]
    simp only [if_neg hlow, if_neg hhigh, Char.ofNat_toNat]
    exact Gives.widen h _
  · rw [hchar]
    show Gives (stringBody (c :: rest) read) value tail
    rw [stringBody, if_neg (not_or.mpr ⟨hcontrol, hslash⟩)]
    · exact Gives.widen h _
    · exact hquote
    · exact fun _ _ _ _ _ h => absurd h hslash
    · exact fun _ _ h => absurd h hslash

/-- A string is read up to its closing quote. -/
theorem gives_stringBody (cs rest read : List Char) :
    Gives (stringBody (cs.flatMap escapeChar ++ '"' :: rest) read) (String.ofList (read.reverse ++ cs))
      rest := by
  induction cs generalizing read with
  | nil =>
      show Gives (stringBody ('"' :: rest) read) _ rest
      rw [stringBody, List.append_nil]
      exact ⟨_, rfl⟩
  | cons c cs ih =>
      have hread := ih (c :: read)
      rw [List.reverse_cons, List.append_assoc] at hread
      rw [List.flatMap_cons, List.append_assoc]
      exact gives_stringBody_escapeChar hread

theorem gives_quoted (s : String) (rest : List Char) :
    Gives (stringBody (s.toList.flatMap escapeChar ++ '"' :: rest) []) s rest := by
  have hread := gives_stringBody s.toList rest []
  rwa [List.reverse_nil, List.nil_append, String.ofList_toList] at hread

/-! ## Values -/

section

variable {read : Numeral → Option Number} {depth : Nat} {cs rest : List Char}

theorem gives_null : Gives (valueAt read depth ("null".toList ++ rest)) .null rest := by
  have hword : word? ['u', 'l', 'l'] ('u' :: 'l' :: 'l' :: rest) = some rest := rfl
  show Gives (valueAt read depth ('n' :: 'u' :: 'l' :: 'l' :: rest)) _ rest
  rw [valueAt, hword]
  exact ⟨by simp only [List.length_cons]; omega, dif_pos _⟩

theorem gives_bool (b : Bool) :
    Gives (valueAt read depth ((if b then "true" else "false").toList ++ rest)) (.bool b) rest := by
  cases b with
  | true =>
      have hword : word? ['r', 'u', 'e'] ('r' :: 'u' :: 'e' :: rest) = some rest := rfl
      show Gives (valueAt read depth ('t' :: 'r' :: 'u' :: 'e' :: rest)) _ rest
      rw [valueAt, hword]
      exact ⟨by simp only [List.length_cons]; omega, dif_pos _⟩
  | false =>
      have hword : word? ['a', 'l', 's', 'e'] ('a' :: 'l' :: 's' :: 'e' :: rest) = some rest := rfl
      show Gives (valueAt read depth ('f' :: 'a' :: 'l' :: 's' :: 'e' :: rest)) _ rest
      rw [valueAt, hword]
      exact ⟨by simp only [List.length_cons]; omega, dif_pos _⟩

theorem gives_str {s : String} (h : Gives (stringBody cs []) s rest) :
    Gives (valueAt read depth ('"' :: cs)) (.str s) rest := by
  obtain ⟨hless, h⟩ := h
  rw [valueAt, h]
  exact ⟨Nat.lt_succ_of_lt hless, rfl⟩

theorem valueAt_number {c : Char} (h : c = '-' ∨ c.isDigit = true) (cs : List Char) :
    valueAt read depth (c :: cs) = number? read (c :: cs) := by
  have hnot : c ∉ ['"', '[', '\x7b', 'n', 't', 'f'] := by
    intro hmem
    simp only [List.mem_cons, List.not_mem_nil, or_false] at hmem
    obtain rfl | rfl | rfl | rfl | rfl | rfl := hmem <;> exact absurd h (by decide)
  have hother : ∀ other ∈ ['"', '[', '\x7b', 'n', 't', 'f'], ∀ tail, c :: cs ≠ other :: tail :=
    fun other hother tail htail => hnot ((List.cons.inj htail).1 ▸ hother)
  rw [valueAt]
  all_goals exact hother _ (by decide)

theorem number?_negative {n : Numeral} (hnumeral : numeral? true cs = some (n, rest))
    (hless : rest.length < cs.length) :
    number? read ('-' :: cs) =
      (read n).map fun number => ⟨.num number, rest, Nat.lt_succ_of_lt hless⟩ := by
  rw [number?]
  simp only [hnumeral, Option.bind_eq_bind, Option.bind_some]
  cases read n with
  | none => rfl
  | some number => exact dif_pos (Nat.lt_succ_of_lt hless)

theorem number?_positive {n : Numeral} (hsign : ∀ tail, cs ≠ '-' :: tail)
    (hnumeral : numeral? false cs = some (n, rest)) (hless : rest.length < cs.length) :
    number? read cs = (read n).map fun number => ⟨.num number, rest, hless⟩ := by
  rw [number?]
  · simp only [hnumeral, Option.bind_eq_bind, Option.bind_some]
    cases read n with
    | none => rfl
    | some number => exact dif_pos hless
  · exact hsign

/-- A numeral is read as the number that it stands for, if nothing follows that goes on with it. -/
theorem valueAt_numeral {n : Numeral} (h : n.Proper) (hrest : Numeral.Ends rest) :
    ∃ hless, valueAt read depth (signChars n.negative ++ (n.body ++ rest)) =
      (read n).map fun number => ⟨.num number, rest, hless⟩ := by
  have hnumeral := Numeral.numeral?_body h hrest
  have hless : rest.length < (n.body ++ rest).length := by
    have := List.length_pos_iff.mpr h.whole.ne_nil
    simp only [Numeral.body, List.length_append]
    omega
  cases hsign : n.negative with
  | true =>
      rw [hsign] at hnumeral
      refine ⟨Nat.lt_succ_of_lt hless, ?_⟩
      show valueAt read depth ('-' :: (n.body ++ rest)) = _
      rw [valueAt_number (.inl rfl)]
      exact number?_negative hnumeral hless
  | false =>
      rw [hsign] at hnumeral
      refine ⟨hless, ?_⟩
      obtain ⟨c, hfront, hdigit⟩ := head?_digits h.whole.ne_nil h.whole.isDigit
        (Numeral.pointChars n.fraction ++ Numeral.powerChars n.exponent ++ rest)
      obtain ⟨tail, htail⟩ : ∃ tail, n.body ++ rest = c :: tail := by
        rw [Numeral.body, List.append_assoc]
        exact List.head?_eq_some_iff.mp hfront
      have hminus : ∀ tail', n.body ++ rest ≠ '-' :: tail' := by
        intro tail' htail'
        rw [htail] at htail'
        rw [(List.cons.inj htail').1] at hdigit
        exact absurd hdigit (by decide)
      have hread : number? read (n.body ++ rest) = _ := number?_positive hminus hnumeral hless
      refine Eq.trans ?_ hread
      show valueAt read depth (n.body ++ rest) = number? read (n.body ++ rest)
      rw [htail]
      exact valueAt_number (.inr hdigit) tail

theorem gives_num {n : Numeral} (h : n.Proper) (hrest : Numeral.Ends rest) {number : Number}
    (hread : read n = some number) :
    Gives (valueAt read depth (signChars n.negative ++ (n.body ++ rest))) (.num number) rest := by
  obtain ⟨hless, hvalue⟩ := @valueAt_numeral read depth rest n h hrest
  rw [hread] at hvalue
  exact ⟨hless, hvalue⟩

/-- No value begins with a space or with a closing bracket. -/
theorem valueAt_eq_none {c : Char} (h : c ∈ [' ', '\n', '\t', '\r', ']']) :
    valueAt read depth (c :: cs) = none := by
  simp only [List.mem_cons, List.not_mem_nil, or_false] at h
  rcases h with rfl | rfl | rfl | rfl | rfl <;> simp [valueAt, number?, numeral?, Char.isDigit]

theorem skipSpace_of_gives {value : Json} (h : Gives (valueAt read depth cs) value rest) :
    skipSpace cs = cs := by
  obtain ⟨_, h⟩ := h
  cases cs with
  | nil => rfl
  | cons c tail =>
      refine List.dropWhile_cons_of_neg fun hspace => ?_
      rw [valueAt_eq_none] at h
      · exact nomatch h
      · simp only [isSpace, Bool.or_eq_true, decide_eq_true_eq] at hspace
        simp only [List.mem_cons]
        tauto

/-- Items do not begin with the closing bracket. -/
theorem ne_bracket_of_gives {items : List Json} (h : Gives (itemsAt read depth cs) items rest)
    (tail : List Char) : skipSpace cs ≠ ']' :: tail := by
  intro hclose
  obtain ⟨_, h⟩ := h
  have hnone : valueAt read depth (skipSpace cs) = none := by
    rw [hclose]
    exact valueAt_eq_none (by simp)
  rw [itemsAt, hnone] at h
  exact nomatch h

/-- Members do not begin with the closing brace. -/
theorem ne_brace_of_gives {members : List (String × Json)}
    (h : Gives (membersAt read depth cs) members rest) (tail : List Char) :
    skipSpace cs ≠ '\x7d' :: tail := by
  intro hclose
  obtain ⟨_, h⟩ := h
  rw [membersAt] at h
  split at h
  · next hquote => exact absurd (List.cons.inj (hclose.symm.trans hquote)).1 (by decide)
  · cases h

theorem gives_emptyArr (hclose : skipSpace cs = ']' :: rest) :
    Gives (valueAt read (depth + 1) ('[' :: cs)) (.arr []) rest := by
  rw [valueAt]
  split
  · next tail hs =>
    obtain rfl : tail = rest := (List.cons.inj (hs.symm.trans hclose)).2
    exact ⟨_, rfl⟩
  · next hs => exact absurd hclose (hs _)

theorem gives_arr {items : List Json} (h : Gives (itemsAt read depth cs) items rest) :
    Gives (valueAt read (depth + 1) ('[' :: cs)) (.arr items) rest := by
  have hopen := ne_bracket_of_gives h
  obtain ⟨hless, h⟩ := h
  rw [valueAt]
  split
  · next tail hs => exact absurd hs (hopen tail)
  · rw [h]
    exact ⟨Nat.lt_succ_of_lt hless, rfl⟩

theorem gives_emptyObj (hclose : skipSpace cs = '\x7d' :: rest) :
    Gives (valueAt read (depth + 1) ('\x7b' :: cs)) (.obj []) rest := by
  rw [valueAt]
  split
  · next tail hs =>
    obtain rfl : tail = rest := (List.cons.inj (hs.symm.trans hclose)).2
    exact ⟨_, rfl⟩
  · next hs => exact absurd hclose (hs _)

theorem gives_obj {members : List (String × Json)}
    (h : Gives (membersAt read depth cs) members rest) :
    Gives (valueAt read (depth + 1) ('\x7b' :: cs)) (.obj (Fields.ofList members)) rest := by
  have hopen := ne_brace_of_gives h
  obtain ⟨hless, h⟩ := h
  rw [valueAt]
  split
  · next tail hs => exact absurd hs (hopen tail)
  · rw [h]
    exact ⟨Nat.lt_succ_of_lt hless, rfl⟩

/-- An item is followed by the closing bracket, or by a comma and the other items. -/
theorem gives_items {value : Json} {items : List Json} {middle : List Char}
    (h : Gives (valueAt read depth (skipSpace cs)) value middle)
    (hnext : skipSpace middle = ']' :: rest ∧ items = [] ∨
      ∃ next, skipSpace middle = ',' :: next ∧ Gives (itemsAt read depth next) items rest) :
    Gives (itemsAt read depth cs) (value :: items) rest := by
  obtain ⟨hless, h⟩ := h
  rw [itemsAt, h]
  dsimp only
  rcases hnext with ⟨hclose, rfl⟩ | ⟨next, hcomma, hless', hitems⟩
  · split
    · next tail hs =>
      obtain rfl : tail = rest := (List.cons.inj (hs.symm.trans hclose)).2
      exact ⟨_, rfl⟩
    · next tail hs => exact absurd (List.cons.inj (hs.symm.trans hclose)).1 (by decide)
    · next hs _ => exact absurd hclose (hs _)
  · split
    · next tail hs => exact absurd (List.cons.inj (hs.symm.trans hcomma)).1 (by decide)
    · next tail hs =>
      obtain rfl : tail = next := (List.cons.inj (hs.symm.trans hcomma)).2
      rw [hitems]
      exact ⟨_, rfl⟩
    · next hs => exact absurd hcomma (hs _)

/-- A member is followed by the closing brace, or by a comma and the other members. -/
theorem gives_members {key : String} {value : Json} {members : List (String × Json)}
    {afterQuote afterKey afterColon middle : List Char} (hquote : skipSpace cs = '"' :: afterQuote)
    (hkey : Gives (stringBody afterQuote []) key afterKey)
    (hcolon : skipSpace afterKey = ':' :: afterColon)
    (h : Gives (valueAt read depth (skipSpace afterColon)) value middle)
    (hnext : skipSpace middle = '\x7d' :: rest ∧ members = [] ∨
      ∃ next, skipSpace middle = ',' :: next ∧ Gives (membersAt read depth next) members rest) :
    Gives (membersAt read depth cs) ((key, value) :: members) rest := by
  obtain ⟨hless₁, hkey⟩ := hkey
  obtain ⟨hless₂, h⟩ := h
  rw [membersAt]
  split
  · next tail hs =>
    obtain rfl : tail = afterQuote := (List.cons.inj (hs.symm.trans hquote)).2
    rw [hkey]
    dsimp only
    split
    · next tail hk =>
      obtain rfl : tail = afterColon := (List.cons.inj (hk.symm.trans hcolon)).2
      rw [h]
      dsimp only
      rcases hnext with ⟨hclose, rfl⟩ | ⟨next, hcomma, hless₃, hmembers⟩
      · split
        · next tail hm =>
          obtain rfl : tail = rest := (List.cons.inj (hm.symm.trans hclose)).2
          exact ⟨_, rfl⟩
        · next tail hm => exact absurd (List.cons.inj (hm.symm.trans hclose)).1 (by decide)
        · next hm _ => exact absurd hclose (hm _)
      · split
        · next tail hm => exact absurd (List.cons.inj (hm.symm.trans hcomma)).1 (by decide)
        · next tail hm =>
          obtain rfl : tail = next := (List.cons.inj (hm.symm.trans hcomma)).2
          rw [hmembers]
          exact ⟨_, rfl⟩
        · next hm => exact absurd hcomma (hm _)
    · next hk => exact absurd hcolon (hk _)
  · next hs => exact absurd hquote (hs _)

end

end Json

end Questionnaire
