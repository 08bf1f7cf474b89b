import ShapeTypes.Span
import ShapeTypes.Text.Word

/-
  Placeholders: the whole-word occurrences of `any` in a
  text, wherever they stand.

  Key definitions include:
    * `ShapeTypes.Placeholder.word`
    * `ShapeTypes.Placeholder.columns`
    * `ShapeTypes.Diagnostic`
    * `ShapeTypes.Placeholder.scan`
-/

namespace ShapeTypes

------------------------------------------------------------
-- Whole Words
------------------------------------------------------------

namespace Placeholder

/- The word that stands for a type still to be found. -/
def word : String :=
  "any"

/- The text continues with the placeholder and then ends the word. -/
def startsHere : List Char → Bool
  | 'a' :: 'n' :: 'y' :: rest => !(rest.head?.any Text.isWord)
  | _ => false

/-
  The byte columns at which the placeholder stands as a
  whole word.  `previous` is the character before the rest
  of the line, and `column` is where that rest starts.
-/
def columns :
    (previous : Option Char) → (column : Nat) → List Char → List Nat
  | _, _, [] => []
  | previous, column, c :: cs =>
      let rest := columns (some c) (column + c.utf8Size) cs
      if startsHere (c :: cs) && !(previous.any Text.isWord) then
        column :: rest
      else
        rest

end Placeholder

------------------------------------------------------------
-- Diagnostics
------------------------------------------------------------

/- How serious a diagnostic is. -/
inductive Severity where
  | warning
deriving DecidableEq, Repr

/- The word for a severity. -/
def Severity.text : Severity → String
  | .warning => "warning"

/- A remark about a range of a text. -/
structure Diagnostic where
  range : SourceRange
  message : String
  severity : Severity
deriving DecidableEq, Repr

namespace Placeholder

/- The remark about a placeholder. -/
def diagnostic
    (range : SourceRange) :
    Diagnostic where
  range := range
  message := "Found 'any', consider converting it to a specific type."
  severity := .warning

/- The range of a placeholder on a line. -/
def rangeAt
    (line column : Nat) :
    SourceRange :=
  ⟨⟨line, column⟩, ⟨line, column + 3⟩⟩

/- The ranges of the placeholders on some lines, from line `n` on. -/
def rangesFrom : (n : Nat) → List (List Char) → List SourceRange
  | _, [] => []
  | n, line :: rest =>
      (columns none 0 line).map (rangeAt n) ++ rangesFrom (n + 1) rest

/- The ranges of all placeholders, in the order of the text. -/
def ranges
    (source : String) :
    List SourceRange :=
  rangesFrom 0 (Text.lines source.toList)

/- A diagnostic for every placeholder, in the order of the text. -/
def scan
    (source : String) :
    List Diagnostic :=
  (ranges source).map diagnostic

end Placeholder

end ShapeTypes
