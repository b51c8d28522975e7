/-!
# Blank characters

The characters that count as white space, and trimming by them. A character is blank exactly when
it has the Unicode property `White_Space`; the class is wider than that of `Char.isWhitespace`.
-/

namespace Questionnaire.Text

/-- The code points of the 25 characters with the property `White_Space`. -/
def blankCodes : List Nat :=
  [0x9, 0xA, 0xB, 0xC, 0xD, 0x20, 0x85, 0xA0, 0x1680, 0x2000, 0x2001, 0x2002, 0x2003, 0x2004,
    0x2005, 0x2006, 0x2007, 0x2008, 0x2009, 0x200A, 0x2028, 0x2029, 0x202F, 0x205F, 0x3000]

/-- Whether a character is white space. -/
def isBlank (c : Char) : Bool :=
  blankCodes.contains c.toNat

/-- Drops the blank characters at the front. -/
def trimFront (cs : List Char) : List Char :=
  cs.dropWhile isBlank

/-- Drops the blank characters at the end. -/
def trimBack (cs : List Char) : List Char :=
  (cs.reverse.dropWhile isBlank).reverse

/-- Drops the blank characters at both ends. -/
def trimmed (cs : List Char) : List Char :=
  trimBack (trimFront cs)

/-- The text without the blank characters at its ends. -/
def trim (s : String) : String :=
  String.ofList (trimmed s.toList)

/-- Whether a text has nothing but blank characters. -/
def isBlankText (s : String) : Bool :=
  s.toList.all isBlank

end Questionnaire.Text
