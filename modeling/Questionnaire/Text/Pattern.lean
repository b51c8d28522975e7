import Questionnaire.Text.Blank

/-!
# Text patterns

A pattern is asked of a text as a whole. What a pattern is here is what validation uses of it: the
texts that match, which may be any, and the source text by which messages refer to it. Two patterns
belong to the library, those of an email address and of a postcode. A postcode may be written in
either case; the letters of both cases include two that have a Latin capital only when folded, the
long s and the Kelvin sign.
-/

namespace Questionnaire.Text

/-- One place of a shape: a class of characters, and whether the place may stay empty. -/
structure Place where
  admits : Char → Bool
  optional : Bool

/-- A place that must be filled. -/
def Place.one (admits : Char → Bool) : Place := ⟨admits, false⟩

/-- A place that may stay empty. -/
def Place.maybe (admits : Char → Bool) : Place := ⟨admits, true⟩

/-- Whether the places can be filled, in order, by exactly these characters. -/
def fills : List Place → List Char → Bool
  | [], cs => cs.isEmpty
  | place :: rest, [] => place.optional && fills rest []
  | place :: rest, c :: cs =>
    (place.admits c && fills rest cs) || (place.optional && fills rest (c :: cs))

/-- The parts between the separators; one more than there are separators. -/
def splitAt (separator : Char) : List Char → List (List Char)
  | [] => [[]]
  | c :: rest =>
    if c = separator then [] :: splitAt separator rest
    else
      match splitAt separator rest with
      | [] => [[c]]
      | part :: parts => (c :: part) :: parts

/-- A letter that is one of A to Z when case is ignored. -/
def isFoldedCapital (c : Char) : Bool :=
  c.isAlpha || c = '\u017f' || c = '\u212a'

/-- The places of a postcode. -/
def postcodePlaces : List Place :=
  [.one isFoldedCapital, .maybe isFoldedCapital, .one Char.isDigit,
    .maybe fun c => isFoldedCapital c || c.isDigit, .maybe (· == ' '), .one Char.isDigit,
    .one isFoldedCapital, .one isFoldedCapital]

/-- The characters of the part before the at sign. -/
def isMailboxChar (c : Char) : Bool :=
  c.isAlphanum || ".!#$%&'*+/=?^_\x60\x7b|\x7d~-".toList.contains c

/-- A label of a domain: up to 63 letters, digits and hyphens, no hyphen at an end. -/
def isDomainLabel (label : List Char) : Bool :=
  label.length ≤ 63 && label.all (fun c => c.isAlphanum || c = '-') &&
    label.head?.any Char.isAlphanum && label.getLast?.any Char.isAlphanum

/-- A mailbox, an at sign, and at least two labels with points between them. -/
def isEmail (cs : List Char) : Bool :=
  match splitAt '@' cs with
  | [mailbox, domain] =>
    !mailbox.isEmpty && mailbox.all isMailboxChar &&
      2 ≤ (splitAt '.' domain).length && (splitAt '.' domain).all isDomainLabel
  | _ => false

/-- A pattern: its source text, and which texts match it. -/
structure Pattern where
  source : String
  accepts : String → Bool

namespace Pattern

/-- The pattern of an email address. -/
def email : Pattern where
  source :=
    "^[A-Za-z0-9.!#$%&'*+/=?^_\x60\x7b|\x7d~-]+@[A-Za-z0-9](?:[A-Za-z0-9-]\x7b0,61\x7d[A-Za-z0-9])?" ++
      "(?:\\.[A-Za-z0-9](?:[A-Za-z0-9-]\x7b0,61\x7d[A-Za-z0-9])?)+$"
  accepts s := isEmail s.toList

/-- The pattern of a postcode. -/
def postcode : Pattern where
  source := "(?i)^[A-Z]\x7b1,2\x7d[0-9][A-Z0-9]? ?[0-9][A-Z]\x7b2\x7d$"
  accepts s := fills postcodePlaces s.toList

theorem accepts_postcode (s : String) : postcode.accepts s = fills postcodePlaces s.toList := rfl

end Pattern

end Questionnaire.Text
