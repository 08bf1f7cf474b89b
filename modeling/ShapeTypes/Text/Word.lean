import ShapeTypes.Text.Alphabetic
import ShapeTypes.Text.Mark
import ShapeTypes.Text.Newcomer
import ShapeTypes.Text.Numeral

/-
  Word characters and identifiers.

  Identifiers follow revision 17 of the Unicode standard,
  and words follow revision 16.

  Key definitions include:
    * `ShapeTypes.Text.isWord`
    * `ShapeTypes.Text.isAlphabetic`
    * `ShapeTypes.Text.isAlphanumeric`
    * `ShapeTypes.Text.isIdentifier`
-/

namespace ShapeTypes

namespace Text

------------------------------------------------------------
-- Classes of Characters
------------------------------------------------------------

/- Low lines and ties, which connect two parts of a word. -/
def connectors : CharRanges :=
  [(0x5f, 0x5f), (0x203f, 0x2040), (0x2054, 0x2054), (0xfe33, 0xfe34),
   (0xfe4d, 0xfe4f), (0xff3f, 0xff3f)]

/- The two invisible joiners. -/
def joiners : CharRanges :=
  [(0x200c, 0x200d)]

/- A character that behaves as a letter. -/
def isAlphabetic
    (c : Char) :
    Bool :=
  alphabetic.contains c.toNat

/- A letter or any numeral. -/
def isAlphanumeric
    (c : Char) :
    Bool :=
  isAlphabetic c
    || decimalDigits.contains c.toNat
    || otherNumerals.contains c.toNat

/-
  A character that belongs to a word: a letter, a mark, a
  decimal digit, a connector or a joiner.  Superscripts and
  fractions belong to none, and neither do newcomers.
-/
def isWord
    (c : Char) :
    Bool :=
  !newcomers.contains c.toNat
    && (isAlphabetic c
      || marks.contains c.toNat
      || decimalDigits.contains c.toNat
      || connectors.contains c.toNat
      || joiners.contains c.toNat)

------------------------------------------------------------
-- Identifiers
------------------------------------------------------------

/- A character that may start an identifier. -/
def isIdentifierStart
    (c : Char) :
    Bool :=
  isAlphabetic c || c == '_' || c == '$'

/- A character that may continue an identifier. -/
def isIdentifierPart
    (c : Char) :
    Bool :=
  isAlphanumeric c || c == '_' || c == '$'

/-
  A text that may stand as a property name without quotes.
-/
def isIdentifier
    (text : String) :
    Bool :=
  match text.toList with
  | [] => false
  | c :: cs => isIdentifierStart c && cs.all isIdentifierPart

end Text

end ShapeTypes
