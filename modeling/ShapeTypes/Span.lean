import ShapeTypes.Text.Offset

/-
  Positions, node spans and host ranges.

  A node span counts lines from one, a host range counts
  them from zero.  Columns are byte columns from zero in
  both.

  Key definitions include:
    * `ShapeTypes.Position`
    * `ShapeTypes.Location`
    * `ShapeTypes.Location.Contains`
    * `ShapeTypes.SourceRange`
    * `ShapeTypes.SourceRange.toSpan`
    * `ShapeTypes.Position.offset?`
-/

namespace ShapeTypes

------------------------------------------------------------
-- Positions
------------------------------------------------------------

/- A line and a byte column on it. -/
structure Position where
  line : Nat
  column : Nat
deriving DecidableEq, Repr, Inhabited

namespace Position

/- Positions are ordered by line, then by column. -/
instance : LT Position where
  lt p q := p.line < q.line ∨ p.line = q.line ∧ p.column < q.column

instance : LE Position where
  le p q := p.line < q.line ∨ p.line = q.line ∧ p.column ≤ q.column

instance
    (p q : Position) :
    Decidable (p < q) :=
  inferInstanceAs
    (Decidable (p.line < q.line ∨ p.line = q.line ∧ p.column < q.column))

instance
    (p q : Position) :
    Decidable (p ≤ q) :=
  inferInstanceAs
    (Decidable (p.line < q.line ∨ p.line = q.line ∧ p.column ≤ q.column))

/- A position is written `line:column`. -/
def render
    (p : Position) :
    String :=
  toString p.line ++ ":" ++ toString p.column

/-
  The byte offset of a position among the lines of a text.
  There is none when the line does not exist, or when the
  column is past its end or inside a character.
-/
def offsetIn? : List (List Char) → Nat → Nat → Option Nat
  | [], _, _ => none
  | line :: _, 0, column =>
      (Text.splitAt? column line).map fun _ => column
  | line :: rest, n + 1, column =>
      (offsetIn? rest n column).map (Text.byteLength line + 1 + ·)

/- The byte offset in `source` of a zero-based position. -/
def offset?
    (source : String)
    (p : Position) :
    Option Nat :=
  offsetIn? (Text.lines source.toList) p.line p.column

end Position

------------------------------------------------------------
-- Node Spans
------------------------------------------------------------

/-
  The span of a node: its bytes, and its first and last
  position with lines counted from one.
-/
structure Location where
  offsetStart : Nat := 0
  offsetEnd : Nat := 0
  startLine : Nat := 0
  startColumn : Nat := 0
  endLine : Nat := 0
  endColumn : Nat := 0
deriving DecidableEq, Repr, Inhabited

namespace Location

/- Where the span starts. -/
def start
    (l : Location) :
    Position :=
  ⟨l.startLine, l.startColumn⟩

/- Where the span ends. -/
def stop
    (l : Location) :
    Position :=
  ⟨l.endLine, l.endColumn⟩

/-
  The positions from `p` to `q` lie within the span.  A pair
  in the wrong order lies in no span.
-/
def Contains
    (l : Location)
    (p q : Position) : Prop :=
  l.start ≤ p ∧ q ≤ l.stop ∧ p ≤ q

instance
    (l : Location)
    (p q : Position) :
    Decidable (l.Contains p q) := by
  unfold Contains
  infer_instance

/- A span is written as its first position. -/
def render
    (l : Location) :
    String :=
  l.start.render

end Location

------------------------------------------------------------
-- Host Ranges
------------------------------------------------------------

/- A selection, with lines counted from zero. -/
structure SourceRange where
  start : Position
  stop : Position
deriving DecidableEq, Repr, Inhabited

namespace SourceRange

/- The empty selection at a position. -/
def caret
    (p : Position) :
    SourceRange :=
  ⟨p, p⟩

/-
  The first and last position as node spans count them, with
  lines from one.  Lines are not bounded here: in 32 bits, a
  selection on line 4294967295 has no span.
-/
def toSpan
    (r : SourceRange) :
    Position × Position :=
  (⟨r.start.line + 1, r.start.column⟩, ⟨r.stop.line + 1, r.stop.column⟩)

/- The selection lies within a node span. -/
def Within
    (r : SourceRange)
    (l : Location) : Prop :=
  l.Contains r.toSpan.1 r.toSpan.2

instance
    (r : SourceRange)
    (l : Location) :
    Decidable (r.Within l) := by
  unfold Within
  infer_instance

/- A range is written `line:column-line:column`. -/
def render
    (r : SourceRange) :
    String :=
  r.start.render ++ "-" ++ r.stop.render

end SourceRange

end ShapeTypes
