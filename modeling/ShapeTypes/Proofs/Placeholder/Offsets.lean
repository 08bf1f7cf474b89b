import ShapeTypes.Proofs.Placeholder.Occurrences
import ShapeTypes.Proofs.Text.Boundary

/-
  The placeholders of a text, by byte offsets.

  The scan gives lines and columns.  Taken back to offsets,
  its ranges are the places where the bytes of the
  placeholder stand with no word character before them and
  none behind them.

  Key definitions include:
    * `ShapeTypes.Text.charBefore?`
    * `ShapeTypes.Text.charBehind?`
    * `ShapeTypes.Placeholder.WholeWordAt`
    * `ShapeTypes.Placeholder.offsets`

  Key theorems include:
    * `ShapeTypes.Placeholder.wholeWordAt_iff`
    * `ShapeTypes.Placeholder.offsets_eq`
    * `ShapeTypes.Placeholder.scan_offsets`
-/

------------------------------------------------------------
-- Words at Byte Offsets
------------------------------------------------------------

namespace ShapeTypes

namespace Text

/- The character that ends at a byte offset. -/
def charBefore?
    (offset : Nat)
    (text : List Char) :
    Option Char :=
  (splitAt? offset text).bind fun parts => parts.1.getLast?

/- The character that starts at a byte offset. -/
def charBehind?
    (offset : Nat)
    (text : List Char) :
    Option Char :=
  (splitAt? offset text).bind fun parts => parts.2.head?

theorem charBefore?_append
    (before rest : List Char) :
    charBefore? (byteLength before) (before ++ rest) = before.getLast? := by
  rw [charBefore?, splitAt?_eq_some_iff.2 ⟨rfl, rfl⟩, Option.bind_some]

theorem charBehind?_append
    (before rest : List Char) :
    charBehind? (byteLength before) (before ++ rest) = rest.head? := by
  rw [charBehind?, splitAt?_eq_some_iff.2 ⟨rfl, rfl⟩, Option.bind_some]

end Text

namespace Placeholder

open Text (byteLength)

/-
  The bytes of the placeholder start at a byte offset, with no
  word character before them and none behind them.
-/
def WholeWordAt
    (source : String)
    (offset : Nat) : Prop :=
  source.toByteArray.extract offset (offset + 3) = word.toByteArray ∧
    (Text.charBefore? offset source.toList).any Text.isWord = false ∧
    (Text.charBehind? (offset + 3) source.toList).any Text.isWord = false

instance
    (source : String)
    (offset : Nat) :
    Decidable (WholeWordAt source offset) :=
  inferInstanceAs (Decidable (_ ∧ _ ∧ _))

/- A whole word at an offset is one that stands between two texts. -/
theorem wholeWordAt_iff
    {source : String}
    {offset : Nat} :
    WholeWordAt source offset ↔
      ∃ before rest,
        source.toList = before ++ (word.toList ++ rest) ∧
          byteLength before = offset ∧ Stands before rest := by
  have hBytes :
      source.toByteArray.extract offset (offset + 3) =
          word.toByteArray ↔
        ∃ before rest,
          source.toList = before ++ (word.toList ++ rest) ∧
            byteLength before = offset := by
    have hSize : word.utf8ByteSize = 3 := by decide
    rw [← hSize]
    exact Text.extract_toByteArray_eq_iff (by decide)
  unfold WholeWordAt
  rw [hBytes]
  -- Both sides name the texts around the word.
  have hAround
      {before rest : List Char}
      (hSource : source.toList = before ++ (word.toList ++ rest)) :
      Text.charBefore? (byteLength before) source.toList =
          before.getLast? ∧
        Text.charBehind? (byteLength before + 3) source.toList =
          rest.head? := by
    have hEnd :
        byteLength before + 3 = byteLength (before ++ word.toList) := by
      rw [Text.byteLength_append]
      rfl
    refine ⟨by rw [hSource, Text.charBefore?_append], ?_⟩
    rw [hEnd, hSource, ← List.append_assoc, Text.charBehind?_append]
  constructor
  · rintro ⟨⟨before, rest, hSource, rfl⟩, hBefore, hBehind⟩
    rw [(hAround hSource).1] at hBefore
    rw [(hAround hSource).2] at hBehind
    exact ⟨before, rest, hSource, rfl, hBefore, hBehind⟩
  · rintro ⟨before, rest, hSource, rfl, hBefore, hBehind⟩
    rw [(hAround hSource).1, (hAround hSource).2]
    exact ⟨⟨before, rest, hSource, rfl⟩, hBefore, hBehind⟩

end Placeholder

end ShapeTypes

------------------------------------------------------------
-- The Scan by Offsets
------------------------------------------------------------

namespace ShapeTypes

namespace Placeholder

open Text (byteLength)

/- The byte offsets at which the placeholders of a text start. -/
def offsets
    (source : String) :
    List Nat :=
  (scan source).filterMap fun found => found.range.start.offset? source

/- The lengths of what comes before the placeholders of a text. -/
def starts
    (text : List Char) :
    List Nat :=
  (occurrences [] text).map byteLength

/- A function of the ranges that are found, by occurrences. -/
theorem map_scan_eq
    {α : Type}
    (source : String)
    (view : SourceRange → α) :
    ((scan source).map fun found => view found.range) =
      (occurrences [] source.toList).map fun before =>
        view (rangeAfter before) := by
  rw [scan, ranges_eq, List.map_map, List.map_map]
  rfl

/- The ranges start at the ends of what comes before. -/
theorem map_start_scan
    (source : String) :
    ((scan source).map fun found => found.range.start.offset? source) =
      (starts source.toList).map some := by
  rw [map_scan_eq source fun range => range.start.offset? source, starts,
    List.map_map]
  apply List.map_congr_left
  intro before hMem
  exact (offset?_rangeAfter hMem).1

/- The ranges stop three bytes later. -/
theorem map_stop_scan
    (source : String) :
    ((scan source).map fun found => found.range.stop.offset? source) =
      (starts source.toList).map fun offset => some (offset + 3) := by
  rw [map_scan_eq source fun range => range.stop.offset? source, starts,
    List.map_map]
  apply List.map_congr_left
  intro before hMem
  exact (offset?_rangeAfter hMem).2

/- The offsets are the lengths of what comes before. -/
theorem offsets_eq
    (source : String) :
    offsets source = starts source.toList := by
  have hStarts := congrArg (List.filterMap id) (map_start_scan source)
  rw [List.filterMap_map, List.filterMap_map] at hStarts
  simpa [offsets, Function.comp_def] using hStarts

/- The offsets are those of the whole words. -/
theorem mem_offsets_iff
    {source : String}
    {offset : Nat} :
    offset ∈ offsets source ↔ WholeWordAt source offset := by
  rw [offsets_eq, starts, List.mem_map, wholeWordAt_iff]
  constructor
  · rintro ⟨before, hMem, rfl⟩
    rcases mem_occurrences_iff.1 hMem with
      ⟨more, rest, rfl, hSource, hStands⟩
    exact ⟨_, rest, by rw [hSource, List.append_assoc], rfl, hStands⟩
  · rintro ⟨before, rest, hSource, rfl, hStands⟩
    refine ⟨before, mem_occurrences_iff.2 ?_, rfl⟩
    exact ⟨before, rest, rfl, by rw [hSource, List.append_assoc], hStands⟩

/-
  The scan of a source of less than four gigabytes, by byte
  offsets.  Every start and every end of a range has an
  offset, and they are three bytes apart.  The starts
  increase, and are the offsets of all whole words.  No line
  and no column needs more than 32 bits.
-/
theorem scan_offsets
    {source : String}
    (hSize : source.utf8ByteSize < 2 ^ 32) :
    ((scan source).map fun found => found.range.start.offset? source) =
        (offsets source).map some ∧
      ((scan source).map fun found => found.range.stop.offset? source) =
        (offsets source).map (fun offset => some (offset + 3)) ∧
      (offsets source).Pairwise (· < ·) ∧
      (∀ offset, offset ∈ offsets source ↔ WholeWordAt source offset) ∧
      ∀ found ∈ scan source,
        found.range.start.line < 2 ^ 32 ∧
          found.range.start.column < 2 ^ 32 ∧
          found.range.stop.line < 2 ^ 32 ∧
          found.range.stop.column < 2 ^ 32 := by
  refine ⟨?_, ?_, ?_, fun _ => mem_offsets_iff, ?_⟩
  · rw [offsets_eq, map_start_scan]
  · rw [offsets_eq, map_stop_scan]
  · rw [offsets_eq, starts, List.pairwise_map]
    refine (occurrences_pairwise [] source.toList).imp ?_
    intro a b hApart
    omega
  · intro found hFound
    rw [scan, ranges_eq, List.map_map] at hFound
    rcases List.mem_map.1 hFound with ⟨before, hMem, rfl⟩
    rcases offset?_rangeAfter hMem with ⟨hStart, hStop⟩
    have hFirst := Position.line_add_column_le hStart
    have hLast := Position.line_add_column_le hStop
    simp only [Function.comp_apply, diagnostic]
    omega

/-
  A letter of two bytes joins the word behind it, and a
  superscript joins neither the word before it nor the one
  behind it.
-/
theorem scan_offsets_adjacent :
    "any éany\nany²any".utf8ByteSize < 2 ^ 32 ∧
      offsets "any éany\nany²any" = [0, 10, 15] ∧
      ∀ offset,
        offset ∈ [0, 10, 15] ↔ WholeWordAt "any éany\nany²any" offset := by
  have hSize : "any éany\nany²any".utf8ByteSize < 2 ^ 32 := by decide
  have hOffsets : offsets "any éany\nany²any" = [0, 10, 15] := by
    decide +kernel
  refine ⟨hSize, hOffsets, ?_⟩
  rw [← hOffsets]
  exact (scan_offsets hSize).2.2.2.1

end Placeholder

end ShapeTypes
