import Mathlib.Data.List.Induction
import ShapeTypes.Span

/-
  Positions as the ends of prefixes.

  A prefix of a text ends at a position: the line is the
  number of line feeds in the prefix, and the column is the
  length of what follows the last of them.  A position has
  an offset exactly when some prefix ends there.

  Key definitions include:
    * `ShapeTypes.Position.after`

  Key theorems include:
    * `ShapeTypes.Position.offset?_eq_some_iff`
-/

------------------------------------------------------------
-- Ends of Prefixes
------------------------------------------------------------

namespace ShapeTypes

namespace Position

open Text (byteLength)

/- The position at which a text ends. -/
def after
    (text : List Char) :
    Position where
  line := text.count '\n'
  column := byteLength (text.reverse.takeWhile (· ≠ '\n'))

/-
  The position `p` of a text, seen from a text with one more
  character in front.
-/
def behind
    (c : Char)
    (p : Position) :
    Position :=
  if c = '\n' then ⟨p.line + 1, p.column⟩
  else if p.line = 0 then ⟨0, c.utf8Size + p.column⟩
  else p

@[simp]
theorem after_nil : after [] = ⟨0, 0⟩ :=
  rfl

/- A line feed at the end starts a new line. -/
theorem after_append_newline
    (text : List Char) :
    after (text ++ ['\n']) = ⟨(after text).line + 1, 0⟩ := by
  simp [after, byteLength]

/- Any other character at the end moves the column. -/
theorem after_append_char
    (text : List Char)
    {c : Char}
    (hChar : c ≠ '\n') :
    after (text ++ [c]) =
      ⟨(after text).line, (after text).column + c.utf8Size⟩ := by
  simp [after, byteLength, hChar, Nat.add_comm]

/- A text without line feeds moves the column by its length. -/
theorem after_append_of_no_newline
    (text : List Char)
    {more : List Char}
    (hMore : '\n' ∉ more) :
    after (text ++ more) =
      ⟨(after text).line, (after text).column + byteLength more⟩ := by
  induction more generalizing text with
  | nil => simp [byteLength]
  | cons c more ih =>
      simp only [List.mem_cons, not_or] at hMore
      have hChar : c ≠ '\n' := fun h => hMore.1 h.symm
      rw [List.append_cons, ih (text ++ [c]) hMore.2,
        after_append_char text hChar]
      simp [byteLength, Nat.add_assoc]

/- How a first character moves the end of a text. -/
theorem after_cons
    (c : Char)
    (text : List Char) :
    after (c :: text) = behind c (after text) := by
  induction text using List.reverseRecOn with
  | nil =>
      by_cases hChar : c = '\n'
      · simp [after, behind, byteLength, hChar]
      · simp [after, behind, byteLength, hChar]
  | append_singleton text d ih =>
      rw [← List.cons_append]
      by_cases hLast : d = '\n'
      · subst hLast
        rw [after_append_newline, after_append_newline, ih]
        unfold behind
        split
        · rfl
        · split <;> simp_all
      · rw [after_append_char _ hLast, after_append_char _ hLast, ih]
        unfold behind
        split
        · rfl
        · split <;> simp_all [Nat.add_assoc]

end Position

end ShapeTypes

------------------------------------------------------------
-- Lines
------------------------------------------------------------

namespace ShapeTypes

namespace Text

/- A line feed in front is an empty first line. -/
@[simp]
theorem lines_newline
    (cs : List Char) :
    lines ('\n' :: cs) = [] :: lines cs := by
  simp [lines]

/- Any other character in front belongs to the first line. -/
theorem lines_cons_of_ne
    {c : Char}
    {cs line : List Char}
    {rest : List (List Char)}
    (hChar : c ≠ '\n')
    (hLines : lines cs = line :: rest) :
    lines (c :: cs) = (c :: line) :: rest := by
  simp only [lines, hLines, beq_eq_false_iff_ne.2 hChar]

/- The first line of a text and the lines behind it. -/
theorem exists_lines_eq_cons
    (cs : List Char) :
    ∃ line rest, lines cs = line :: rest :=
  List.exists_cons_of_ne_nil (lines_ne_nil cs)

/- The first line ends with the text or at a line feed. -/
theorem eq_line_append
    {cs line : List Char}
    {rest : List (List Char)}
    (hLines : lines cs = line :: rest) :
    cs = line ∨ ∃ more, cs = line ++ '\n' :: more := by
  induction cs generalizing line rest with
  | nil =>
      simp only [lines, List.cons.injEq] at hLines
      exact Or.inl hLines.1
  | cons c cs ih =>
      by_cases hChar : c = '\n'
      · subst hChar
        rw [lines_newline, List.cons.injEq] at hLines
        rw [← hLines.1]
        exact Or.inr ⟨cs, rfl⟩
      · obtain ⟨first, others, hTail⟩ := exists_lines_eq_cons cs
        rw [lines_cons_of_ne hChar hTail, List.cons.injEq] at hLines
        rw [← hLines.1]
        rcases ih hTail with hEq | ⟨more, hEq⟩
        · exact Or.inl (by rw [hEq])
        · exact Or.inr ⟨more, by rw [hEq]; rfl⟩

end Text

end ShapeTypes

------------------------------------------------------------
-- Offsets of Positions
------------------------------------------------------------

namespace ShapeTypes

namespace Position

open Text (byteLength lines splitAt?)

/- A first character moves the offset of every later position. -/
theorem offsetIn?_behind
    (c : Char)
    (cs : List Char)
    (p : Position) :
    offsetIn? (lines (c :: cs)) (behind c p).line (behind c p).column =
      (offsetIn? (lines cs) p.line p.column).map (c.utf8Size + ·) := by
  obtain ⟨line, column⟩ := p
  by_cases hChar : c = '\n'
  · subst hChar
    simp [behind, offsetIn?, byteLength]
    rfl
  · obtain ⟨first, rest, hLines⟩ := Text.exists_lines_eq_cons cs
    have hPos : 0 < c.utf8Size := Char.utf8Size_pos c
    rw [hLines, Text.lines_cons_of_ne hChar hLines]
    cases line with
    | zero =>
        obtain ⟨n, hn⟩ : ∃ n, c.utf8Size + column = n + 1 :=
          ⟨c.utf8Size + column - 1, by omega⟩
        have hLe : c.utf8Size ≤ n + 1 := by omega
        have hSub : n + 1 - c.utf8Size = column := by omega
        simp only [behind, hChar, if_false, if_true, offsetIn?, hn,
          splitAt?, hLe, hSub, Option.map_map]
        rw [← hn]
        rfl
    | succ line =>
        simp only [behind, hChar, if_false, Nat.add_one_ne_zero,
          offsetIn?, Option.map_map, byteLength]
        congr 1
        funext n
        simp only [Function.comp_apply]
        omega

/- Every prefix ends at a position whose offset is its length. -/
theorem offsetIn?_after
    (before rest : List Char) :
    offsetIn? (lines (before ++ rest)) (after before).line
        (after before).column =
      some (byteLength before) := by
  induction before with
  | nil =>
      obtain ⟨first, others, hLines⟩ := Text.exists_lines_eq_cons rest
      simp [hLines, offsetIn?, splitAt?, byteLength]
  | cons c before ih =>
      rw [List.cons_append, after_cons, offsetIn?_behind, ih]
      rfl

/- A position other than the start lies behind the first character. -/
theorem eq_behind_of_offsetIn?
    {c : Char}
    {cs : List Char}
    {p : Position}
    {offset : Nat}
    (hOffset :
      offsetIn? (lines (c :: cs)) p.line p.column = some offset)
    (hStart : p ≠ ⟨0, 0⟩) :
    ∃ q, p = behind c q := by
  obtain ⟨line, column⟩ := p
  by_cases hChar : c = '\n'
  · subst hChar
    cases line with
    | zero =>
        cases column with
        | zero => exact absurd rfl hStart
        | succ column => simp [offsetIn?, splitAt?] at hOffset
    | succ line => exact ⟨⟨line, column⟩, by simp [behind]⟩
  · cases line with
    | zero =>
        obtain ⟨first, rest, hLines⟩ := Text.exists_lines_eq_cons cs
        rw [Text.lines_cons_of_ne hChar hLines] at hOffset
        cases column with
        | zero => exact absurd rfl hStart
        | succ column =>
            simp only [offsetIn?, splitAt?] at hOffset
            split at hOffset
            · rename_i hLe
              refine ⟨⟨0, column + 1 - c.utf8Size⟩, ?_⟩
              simp [behind, hChar]
              omega
            · simp at hOffset
    | succ line => exact ⟨⟨line + 1, column⟩, by simp [behind, hChar]⟩

/- A position with an offset is where a prefix of that length ends. -/
theorem exists_prefix_of_offsetIn?
    {cs : List Char}
    {p : Position}
    {offset : Nat}
    (hOffset : offsetIn? (lines cs) p.line p.column = some offset) :
    ∃ before rest,
      cs = before ++ rest ∧
        byteLength before = offset ∧ after before = p := by
  by_cases hStart : p = ⟨0, 0⟩
  · subst hStart
    have hZero := offsetIn?_after [] cs
    rw [List.nil_append, after_nil] at hZero
    rw [hZero] at hOffset
    exact ⟨[], cs, rfl, Option.some.inj hOffset, rfl⟩
  · induction cs generalizing p offset with
    | nil =>
        obtain ⟨line, column⟩ := p
        cases line with
        | zero =>
            cases column with
            | zero => exact absurd rfl hStart
            | succ column => simp [lines, offsetIn?, splitAt?] at hOffset
        | succ line => simp [lines, offsetIn?] at hOffset
    | cons c cs ih =>
        rcases eq_behind_of_offsetIn? hOffset hStart with ⟨q, rfl⟩
        rw [offsetIn?_behind, Option.map_eq_some_iff] at hOffset
        rcases hOffset with ⟨offset, hOffset, rfl⟩
        by_cases hFirst : q = ⟨0, 0⟩
        · subst hFirst
          have hZero := offsetIn?_after [] cs
          rw [List.nil_append, after_nil] at hZero
          rw [hZero] at hOffset
          cases hOffset
          exact ⟨[c], cs, rfl, by simp [byteLength], after_cons c []⟩
        · rcases ih hOffset hFirst with
            ⟨before, rest, rfl, rfl, rfl⟩
          exact ⟨c :: before, rest, rfl, rfl, after_cons c before⟩

/-
  A position has an offset exactly when a prefix of the text
  ends there, and the offset is the length of the prefix.
-/
theorem offset?_eq_some_iff
    {source : String}
    {p : Position}
    {offset : Nat} :
    p.offset? source = some offset ↔
      ∃ before rest,
        source.toList = before ++ rest ∧
          byteLength before = offset ∧ after before = p := by
  constructor
  · intro hOffset
    exact exists_prefix_of_offsetIn? hOffset
  · rintro ⟨before, rest, hSource, rfl, rfl⟩
    rw [offset?, hSource]
    exact offsetIn?_after before rest

end Position

end ShapeTypes
