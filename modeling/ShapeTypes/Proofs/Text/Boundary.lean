import Mathlib.Algebra.GroupWithZero.Nat
import ShapeTypes.Proofs.Span
import ShapeTypes.Proofs.Text.Patch
import ShapeTypes.Proofs.Text.Position

/-
  Positions and the boundaries between characters.

  A text can be cut in front of each of its characters and at
  its end.  Each of these boundaries has one position, and
  the positions come in the order of the boundaries, line
  feeds included.

  Key theorems include:
    * `ShapeTypes.Text.isValid_iff_exists_append`
    * `ShapeTypes.Text.extract_toByteArray_eq_iff`
    * `ShapeTypes.Position.after_lt_after_append`
    * `ShapeTypes.Position.after_lt_after_iff`
    * `ShapeTypes.Position.offset?_boundaries`
-/

------------------------------------------------------------
-- Boundaries
------------------------------------------------------------

namespace ShapeTypes

namespace Text

theorem byteLength_toList
    (text : String) :
    byteLength text.toList = text.utf8ByteSize := by
  obtain ⟨cs, rfl⟩ := text.exists_eq_ofList
  rw [String.toList_ofList]
  induction cs with
  | nil => rfl
  | cons c cs ih =>
      rw [byteLength, ih, ← List.singleton_append, String.ofList_append,
        String.utf8ByteSize_append, ← String.singleton_eq_ofList,
        String.utf8ByteSize_singleton]

/- A boundary is where a start of the text ends. -/
theorem isValid_iff_exists_append
    {source : String}
    {offset : Nat} :
    (String.Pos.Raw.mk offset).IsValid source ↔
      ∃ before rest,
        source.toList = before ++ rest ∧ byteLength before = offset := by
  rw [String.Pos.Raw.isValid_iff_exists_append]
  constructor
  · rintro ⟨before, rest, rfl, hOffset⟩
    refine ⟨before.toList, rest.toList, String.toList_append, ?_⟩
    rw [byteLength_toList]
    exact (congrArg String.Pos.Raw.byteIdx hOffset).symm
  · rintro ⟨before, rest, hSource, rfl⟩
    refine ⟨.ofList before, .ofList rest, ?_, ?_⟩
    · rw [← String.ofList_append, ← hSource, String.ofList_toList]
    · rw [← String.toList_ofList (l := before), byteLength_toList,
        String.toList_ofList]
      rfl

theorem size_utf8Encode
    (cs : List Char) :
    cs.utf8Encode.size = byteLength cs := by
  rw [← String.toByteArray_ofList, String.size_toByteArray,
    ← byteLength_toList, String.toList_ofList]

/- The bytes behind a start of a text are those of the rest. -/
theorem extract_toByteArray_append
    {source : String}
    {before rest : List Char}
    (hSource : source.toList = before ++ rest)
    (size : Nat) :
    source.toByteArray.extract (byteLength before)
        (byteLength before + size) =
      rest.utf8Encode.extract 0 size := by
  rw [← String.utf8Encode_toList, hSource, List.utf8Encode_append,
    ← size_utf8Encode]
  exact ByteArray.extract_append_size_add (i := 0)

/- Bytes that make up a text start at a boundary. -/
theorem isValid_of_extract
    {source text : String}
    {offset : Nat}
    (hText : text ≠ "")
    (hBytes :
      source.toByteArray.extract offset (offset + text.utf8ByteSize) =
        text.toByteArray) :
    (String.Pos.Raw.mk offset).IsValid source := by
  have hSize : text.utf8ByteSize ≠ 0 := by
    rwa [ne_eq, String.utf8ByteSize_eq_zero_iff]
  have hStart : offset ≤ offset + text.utf8ByteSize :=
    Nat.le_add_right _ _
  have hStop : offset + text.utf8ByteSize ≤ source.utf8ByteSize := by
    have hLength := congrArg ByteArray.size hBytes
    rw [ByteArray.size_extract, String.size_toByteArray,
      String.size_toByteArray] at hLength
    omega
  have hValid := text.isValidUTF8
  rw [← hBytes] at hValid
  rcases (String.Pos.Raw.isValidUTF8_extract_iff (.mk offset)
      (.mk (offset + text.utf8ByteSize)) hStart hStop).1 hValid with
    hSame | hBoth
  · have hOffset := congrArg String.Pos.Raw.byteIdx hSame
    dsimp only at hOffset
    omega
  · exact hBoth.1

/-
  The bytes of a text that is not empty are found just where
  the text stands between the characters of the source.
-/
theorem extract_toByteArray_eq_iff
    {source text : String}
    {offset : Nat}
    (hText : text ≠ "") :
    source.toByteArray.extract offset (offset + text.utf8ByteSize) =
        text.toByteArray ↔
      ∃ before rest,
        source.toList = before ++ (text.toList ++ rest) ∧
          byteLength before = offset := by
  constructor
  · intro hBytes
    rcases isValid_iff_exists_append.1
        (isValid_of_extract hText hBytes) with
      ⟨before, behind, hSource, rfl⟩
    rw [extract_toByteArray_append hSource] at hBytes
    have hFits : text.utf8ByteSize ≤ behind.utf8Encode.size := by
      have hLength := congrArg ByteArray.size hBytes
      rw [ByteArray.size_extract, String.size_toByteArray] at hLength
      omega
    have hPrefix : text.toList <+: behind := by
      apply List.isPrefix_of_utf8Encode_append_eq_utf8Encode
        (behind.utf8Encode.extract text.utf8ByteSize
          behind.utf8Encode.size)
      rw [String.utf8Encode_toList, ← hBytes,
        ← ByteArray.extract_eq_extract_append_extract _ (Nat.zero_le _)
          hFits,
        ByteArray.extract_zero_size]
    rcases hPrefix with ⟨rest, rfl⟩
    exact ⟨before, rest, hSource, rfl⟩
  · rintro ⟨before, rest, hSource, rfl⟩
    rw [extract_toByteArray_append hSource, List.utf8Encode_append,
      String.utf8Encode_toList]
    exact ByteArray.extract_append_eq_left rfl

end Text

end ShapeTypes

------------------------------------------------------------
-- The Order of Boundaries
------------------------------------------------------------

namespace ShapeTypes

namespace Position

open Text (byteLength)

/- A longer text ends at a later position. -/
theorem after_lt_after_append
    (text : List Char)
    {more : List Char}
    (hMore : more ≠ []) :
    after text < after (text ++ more) := by
  have hStep (text : List Char) (c : Char) :
      after text < after (text ++ [c]) := by
    by_cases hChar : c = '\n'
    · rw [hChar, after_append_newline, lt_iff]
      exact Or.inl (Nat.lt_succ_self _)
    · have hPos : 0 < c.utf8Size := Char.utf8Size_pos c
      rw [after_append_char text hChar, lt_iff]
      exact Or.inr ⟨rfl, Nat.lt_add_of_pos_right hPos⟩
  induction more using List.reverseRecOn with
  | nil => exact absurd rfl hMore
  | append_singleton more c ih =>
      rw [← List.append_assoc]
      by_cases hEmpty : more = []
      · rw [hEmpty, List.append_nil]
        exact hStep text c
      · exact lt_trans (ih hEmpty) (hStep (text ++ more) c)

/- The starts of a text end in the order of their lengths. -/
theorem after_lt_after_iff
    {before rest other more : List Char}
    (hText : before ++ rest = other ++ more) :
    after before < after other ↔ byteLength before < byteLength other := by
  constructor
  · intro hBefore
    by_contra hNot
    rcases Text.exists_eq_append_of_byteLength_le hText.symm
        (Nat.le_of_not_lt hNot) with
      ⟨kept, rfl, -⟩
    by_cases hEmpty : kept = []
    · simp [hEmpty] at hBefore
    · exact lt_asymm hBefore (after_lt_after_append other hEmpty)
  · intro hLength
    rcases Text.exists_eq_append_of_byteLength_le hText
        (Nat.le_of_lt hLength) with
      ⟨kept, rfl, -⟩
    apply after_lt_after_append
    rintro rfl
    simp at hLength

/- Every line feed and every byte of a column is a byte of the text. -/
theorem line_add_column_after_le
    (text : List Char) :
    (after text).line + (after text).column ≤ byteLength text := by
  induction text using List.reverseRecOn with
  | nil => exact Nat.le_refl 0
  | append_singleton text c ih =>
      rw [Text.byteLength_append]
      by_cases hChar : c = '\n'
      · rw [hChar, after_append_newline]
        have hOne : byteLength ['\n'] = 1 := by decide
        dsimp only
        omega
      · rw [after_append_char text hChar]
        have hSize : byteLength [c] = c.utf8Size := by simp [byteLength]
        dsimp only
        omega

/- A position lies no farther from the start than its offset. -/
theorem line_add_column_le
    {source : String}
    {p : Position}
    {offset : Nat}
    (hOffset : p.offset? source = some offset) :
    p.line + p.column ≤ offset ∧ offset ≤ source.utf8ByteSize := by
  rcases offset?_eq_some_iff.1 hOffset with
    ⟨before, rest, hSource, rfl, rfl⟩
  refine ⟨line_add_column_after_le before, ?_⟩
  rw [← Text.byteLength_toList, hSource, Text.byteLength_append]
  exact Nat.le_add_right _ _

/- Positions come in the order of their offsets. -/
theorem lt_iff_offset?_lt
    {source : String}
    {p q : Position}
    {m n : Nat}
    (hp : p.offset? source = some m)
    (hq : q.offset? source = some n) :
    p < q ↔ m < n := by
  rcases offset?_eq_some_iff.1 hp with ⟨before, rest, hSource, rfl, rfl⟩
  rcases offset?_eq_some_iff.1 hq with ⟨other, more, hSame, rfl, rfl⟩
  exact after_lt_after_iff (hSource.symm.trans hSame)

/- The offsets of positions are the boundaries of the text. -/
theorem exists_offset?_iff
    {source : String}
    {offset : Nat} :
    (∃ p : Position, p.offset? source = some offset) ↔
      (String.Pos.Raw.mk offset).IsValid source := by
  simp only [offset?_eq_some_iff, Text.isValid_iff_exists_append]
  constructor
  · rintro ⟨p, before, rest, hSource, hLength, -⟩
    exact ⟨before, rest, hSource, hLength⟩
  · rintro ⟨before, rest, hSource, hLength⟩
    exact ⟨after before, before, rest, hSource, hLength, rfl⟩

/-
  Offsets keep the order of positions, and the offsets of
  positions are the boundaries of the source.  So every
  boundary has one position, and in a source of less than
  four gigabytes its line and its column are small enough
  for 32 bits.
-/
theorem offset?_boundaries
    {source : String}
    (hSize : source.utf8ByteSize < 2 ^ 32) :
    (∀ p q m n,
        offset? source p = some m → offset? source q = some n →
          (p < q ↔ m < n)) ∧
      (∀ offset,
        (∃ p : Position, p.offset? source = some offset) ↔
          (String.Pos.Raw.mk offset).IsValid source) ∧
      (∀ offset,
        (String.Pos.Raw.mk offset).IsValid source →
          ∃! p : Position, p.offset? source = some offset) ∧
      ∀ p offset,
        offset? source p = some offset →
          p.line < 2 ^ 32 ∧ p.column < 2 ^ 32 := by
  refine ⟨fun p q m n => lt_iff_offset?_lt, fun _ => exists_offset?_iff,
    ?_, ?_⟩
  · intro offset hBoundary
    rcases exists_offset?_iff.2 hBoundary with ⟨p, hp⟩
    refine ⟨p, hp, ?_⟩
    intro q hq
    -- Neither of two positions with one offset comes first.
    apply le_antisymm
    · rw [← not_lt, lt_iff_offset?_lt hp hq]
      exact Nat.lt_irrefl offset
    · rw [← not_lt, lt_iff_offset?_lt hq hp]
      exact Nat.lt_irrefl offset
  · intro p offset hOffset
    have hBounds := line_add_column_le hOffset
    omega

/-
  In a text with a character of two bytes, an empty line and
  a last line feed, the offset one is no boundary, and the
  end has a position on a line of its own.
-/
theorem offset?_boundaries_lines :
    "é\n\nx\n".utf8ByteSize < 2 ^ 32 ∧
      ¬ (∃ p : Position, p.offset? "é\n\nx\n" = some 1) ∧
      (∃! p : Position, p.offset? "é\n\nx\n" = some 6) ∧
      offset? "é\n\nx\n" ⟨3, 0⟩ = some 6 := by
  have hSize : "é\n\nx\n".utf8ByteSize < 2 ^ 32 := by decide
  have hEnd : offset? "é\n\nx\n" ⟨3, 0⟩ = some 6 := by decide
  have hInside : ¬ (String.Pos.Raw.mk 1).IsValid "é\n\nx\n" := by decide
  rcases offset?_boundaries hSize with ⟨-, hImage, hUnique, -⟩
  exact ⟨hSize, fun hPosition => hInside ((hImage 1).1 hPosition),
    hUnique 6 ((hImage 6).1 ⟨_, hEnd⟩), hEnd⟩

end Position

end ShapeTypes
