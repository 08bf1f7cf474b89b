import ShapeTypes.Text.CharRange

/-
  Blank characters and trimming.

  Key definitions include:
    * `ShapeTypes.Text.isBlank`
    * `ShapeTypes.Text.trim`
-/

namespace ShapeTypes

namespace Text

/- The characters with the Unicode property White_Space. -/
def blanks : CharRanges :=
  [(0x9, 0xd), (0x20, 0x20), (0x85, 0x85), (0xa0, 0xa0), (0x1680, 0x1680),
   (0x2000, 0x200a), (0x2028, 0x2029), (0x202f, 0x202f), (0x205f, 0x205f),
   (0x3000, 0x3000)]

/- A character that trimming removes. -/
def isBlank
    (c : Char) :
    Bool :=
  blanks.contains c.toNat

/- A list of characters without the blanks at its end. -/
def trimEnd
    (cs : List Char) :
    List Char :=
  (cs.reverse.dropWhile isBlank).reverse

/- A text without the blanks at both ends. -/
def trim
    (text : String) :
    String :=
  String.ofList (trimEnd (text.toList.dropWhile isBlank))

end Text

end ShapeTypes
