import Mathlib.Order.Defs.LinearOrder
import ShapeTypes.Span

/-
  How spans lie to each other.

  Key definitions include:
    * `ShapeTypes.Location.Inside`
    * `ShapeTypes.Location.Apart`
    * `ShapeTypes.Location.toRange`

  Key theorems include:
    * `ShapeTypes.SourceRange.Within.of_inside`
    * `ShapeTypes.SourceRange.Within.not_apart`
-/

------------------------------------------------------------
-- The Order of Positions
------------------------------------------------------------

namespace ShapeTypes

namespace Position

theorem le_iff
    {p q : Position} :
    p ≤ q ↔ p.line < q.line ∨ p.line = q.line ∧ p.column ≤ q.column :=
  Iff.rfl

theorem lt_iff
    {p q : Position} :
    p < q ↔ p.line < q.line ∨ p.line = q.line ∧ p.column < q.column :=
  Iff.rfl

instance : LinearOrder Position where
  le_refl p := by
    rw [le_iff]
    omega
  le_trans p q r hpq hqr := by
    rw [le_iff] at hpq hqr ⊢
    omega
  lt_iff_le_not_ge p q := by
    rw [lt_iff, le_iff, le_iff]
    omega
  le_antisymm p q hpq hqp := by
    rw [le_iff] at hpq hqp
    have hLine : p.line = q.line := by omega
    have hColumn : p.column = q.column := by omega
    cases p
    cases q
    simp_all
  le_total p q := by
    rw [le_iff, le_iff]
    omega
  toDecidableLE := inferInstance
  toDecidableLT := inferInstance
  toDecidableEq := inferInstance

end Position

end ShapeTypes

------------------------------------------------------------
-- Spans Inside and Apart from Each Other
------------------------------------------------------------

namespace ShapeTypes

namespace Location

/- One span lies inside another. -/
def Inside
    (inner outer : Location) : Prop :=
  outer.start ≤ inner.start ∧ inner.stop ≤ outer.stop

instance
    (inner outer : Location) :
    Decidable (inner.Inside outer) := by
  unfold Inside
  infer_instance

theorem Inside.refl
    (l : Location) :
    l.Inside l :=
  ⟨le_refl _, le_refl _⟩

theorem Inside.trans
    {a b c : Location}
    (hab : a.Inside b)
    (hbc : b.Inside c) :
    a.Inside c :=
  ⟨le_trans hbc.1 hab.1, le_trans hab.2 hbc.2⟩

/- One span ends before the other starts. -/
def Apart
    (a b : Location) : Prop :=
  a.stop ≤ b.start ∨ b.stop ≤ a.start

theorem Apart.symm
    {a b : Location}
    (hApart : a.Apart b) :
    b.Apart a :=
  Or.symm hApart

theorem Apart.mono
    {a b c d : Location}
    (hApart : a.Apart b)
    (hca : c.Inside a)
    (hdb : d.Inside b) :
    c.Apart d := by
  rcases hApart with hBefore | hBehind
  · exact Or.inl (le_trans hca.2 (le_trans hBefore hdb.1))
  · exact Or.inr (le_trans hdb.2 (le_trans hBehind hca.1))

/- A span as a host counts its lines. -/
def toRange
    (l : Location) :
    SourceRange :=
  ⟨⟨l.startLine - 1, l.startColumn⟩, ⟨l.endLine - 1, l.endColumn⟩⟩

end Location

end ShapeTypes

------------------------------------------------------------
-- Ranges Within Spans
------------------------------------------------------------

namespace ShapeTypes

namespace SourceRange

namespace Within

/- A range within a span is within every span around it. -/
theorem of_inside
    {range : SourceRange}
    {inner outer : Location}
    (hWithin : range.Within inner)
    (hInside : inner.Inside outer) :
    range.Within outer :=
  ⟨le_trans hInside.1 hWithin.1, le_trans hWithin.2.1 hInside.2,
    hWithin.2.2⟩

/- Node spans keep the order of a range. -/
theorem toSpan_lt
    {range : SourceRange}
    (hProper : range.start < range.stop) :
    range.toSpan.1 < range.toSpan.2 := by
  rw [Position.lt_iff] at hProper ⊢
  simp only [toSpan]
  omega

/- A range that is not empty is not within two separate spans. -/
theorem not_apart
    {range : SourceRange}
    {a b : Location}
    (hProper : range.start < range.stop)
    (ha : range.Within a)
    (hb : range.Within b) :
    ¬ a.Apart b := by
  have hLt := toSpan_lt hProper
  rintro (hBefore | hBehind)
  · have hLe : range.toSpan.2 ≤ range.toSpan.1 :=
      le_trans ha.2.1 (le_trans hBefore hb.1)
    exact absurd hLt (not_lt_of_ge hLe)
  · have hLe : range.toSpan.2 ≤ range.toSpan.1 :=
      le_trans hb.2.1 (le_trans hBehind ha.1)
    exact absurd hLt (not_lt_of_ge hLe)

end Within

end SourceRange

end ShapeTypes
