import Mathlib.Data.List.Induction
import ShapeTypes.Placeholder
import ShapeTypes.Proofs.Text.Position

/-
  The placeholders of a text, by what stands before them.

  The scan looks at one line at a time.  A line feed belongs
  to no word, so it finds the whole-word placeholders of the
  text taken as one.

  Key definitions include:
    * `ShapeTypes.Placeholder.Stands`
    * `ShapeTypes.Placeholder.occurrences`
    * `ShapeTypes.Placeholder.rangeAfter`

  Key theorems include:
    * `ShapeTypes.Placeholder.mem_occurrences_iff`
    * `ShapeTypes.Placeholder.occurrences_pairwise`
    * `ShapeTypes.Placeholder.ranges_eq`
    * `ShapeTypes.Placeholder.ranges_nodup`
-/

------------------------------------------------------------
-- Whole Words of a Text
------------------------------------------------------------

namespace ShapeTypes

namespace Placeholder

open Text (byteLength lines)

/- What stands between two texts is no part of a longer word. -/
def Stands
    (before rest : List Char) : Prop :=
  before.getLast?.any Text.isWord = false ∧
    rest.head?.any Text.isWord = false

instance
    (before rest : List Char) :
    Decidable (Stands before rest) := by
  unfold Stands
  infer_instance

/-
  The parts of a text that a whole-word placeholder follows,
  from the shortest on.  `before` has already been passed.
-/
def occurrences : (before : List Char) → List Char → List (List Char)
  | _, [] => []
  | before, c :: cs =>
      let later := occurrences (before ++ [c]) cs
      if startsHere (c :: cs) && !(before.getLast?.any Text.isWord) then
        before :: later
      else
        later

/- Where the placeholder starts, and the word ends behind it. -/
theorem startsHere_eq_true_iff
    {cs : List Char} :
    startsHere cs = true ↔
      ∃ rest,
        cs = word.toList ++ rest ∧
          rest.head?.any Text.isWord = false := by
  constructor
  · intro hStarts
    unfold startsHere at hStarts
    split at hStarts
    · rename_i rest
      exact ⟨rest, rfl, by simpa using hStarts⟩
    · simp at hStarts
  · rintro ⟨rest, rfl, hRest⟩
    simpa [word, startsHere] using hRest

/-
  The occurrences are the parts that a placeholder follows as
  a whole word.
-/
theorem mem_occurrences_iff
    {before cs text : List Char} :
    text ∈ occurrences before cs ↔
      ∃ more rest,
        text = before ++ more ∧
          cs = more ++ word.toList ++ rest ∧ Stands text rest := by
  induction cs generalizing before with
  | nil => simp [occurrences, word]
  | cons c cs ih =>
      have hLater :
          text ∈ occurrences (before ++ [c]) cs ↔
            ∃ more rest,
              text = before ++ c :: more ∧
                c :: cs = c :: more ++ word.toList ++ rest ∧
                  Stands text rest := by
        rw [ih]
        simp
      constructor
      · intro hMem
        simp only [occurrences] at hMem
        split at hMem
        · rename_i hHere
          simp only [Bool.and_eq_true, Bool.not_eq_true'] at hHere
          rcases List.mem_cons.1 hMem with rfl | hMem
          · rcases startsHere_eq_true_iff.1 hHere.1 with
              ⟨rest, hText, hRest⟩
            exact ⟨[], rest, by simp, hText, hHere.2, hRest⟩
          · rcases hLater.1 hMem with ⟨more, rest, hFound⟩
            exact ⟨c :: more, rest, hFound⟩
        · rcases hLater.1 hMem with ⟨more, rest, hFound⟩
          exact ⟨c :: more, rest, hFound⟩
      · rintro ⟨more, rest, hBefore, hText, hStands⟩
        simp only [occurrences]
        cases more with
        | nil =>
            rw [List.append_nil] at hBefore
            subst hBefore
            have hHere : startsHere (c :: cs) = true :=
              startsHere_eq_true_iff.2 ⟨rest, hText, hStands.2⟩
            simp [hHere, hStands.1]
        | cons d more =>
            have hHead : c = d := by
              simpa using congrArg List.head? hText
            subst hHead
            have hMem := hLater.2 ⟨more, rest, hBefore, hText, hStands⟩
            split
            · exact List.mem_cons_of_mem _ hMem
            · exact hMem

/- Two placeholders never share a character. -/
theorem occurrences_pairwise
    (before cs : List Char) :
    (occurrences before cs).Pairwise fun a b =>
      byteLength a + 3 ≤ byteLength b := by
  induction cs generalizing before with
  | nil => simp [occurrences]
  | cons c cs ih =>
      simp only [occurrences]
      split
      · rename_i hHere
        simp only [Bool.and_eq_true] at hHere
        rcases startsHere_eq_true_iff.1 hHere.1 with ⟨rest, hText, _⟩
        simp only [word, String.reduceToList, List.cons_append, List.nil_append,
          List.cons.injEq] at hText
        rcases hText with ⟨rfl, rfl⟩
        refine List.pairwise_cons.2 ⟨?_, ih _⟩
        intro text hMem
        rcases mem_occurrences_iff.1 hMem with
          ⟨more, after, rfl, hFollows, _⟩
        -- What follows starts with `ny`, so the next `any` is behind it.
        rcases more with _ | ⟨x, _ | ⟨y, more⟩⟩
        · simp [word] at hFollows
        · simp [word] at hFollows
        · have hx : 0 < x.utf8Size := Char.utf8Size_pos x
          have hy : 0 < y.utf8Size := Char.utf8Size_pos y
          have ha : 0 < 'a'.utf8Size := Char.utf8Size_pos 'a'
          simp only [Text.byteLength_append, byteLength]
          omega
      · exact ih _

end Placeholder

end ShapeTypes

------------------------------------------------------------
-- The Scan by Lines
------------------------------------------------------------

namespace ShapeTypes

namespace Placeholder

open Text (byteLength lines)

/- The range of a placeholder that follows a text. -/
def rangeAfter
    (before : List Char) :
    SourceRange :=
  ⟨Position.after before, Position.after (before ++ word.toList)⟩

/- A placeholder stands on one line and is three bytes long. -/
theorem rangeAfter_eq
    (before : List Char) :
    rangeAfter before =
      rangeAt (Position.after before).line (Position.after before).column := by
  have hWord : '\n' ∉ word.toList := by decide
  unfold rangeAfter
  rw [Position.after_append_of_no_newline before hWord]
  rfl

theorem isWord_newline : Text.isWord '\n' = false := by
  decide

/- A line feed behind a text starts or ends no placeholder. -/
theorem startsHere_append_newline
    (line more : List Char) :
    startsHere (line ++ '\n' :: more) = startsHere line := by
  rw [Bool.eq_iff_iff, startsHere_eq_true_iff, startsHere_eq_true_iff]
  constructor
  · rintro ⟨rest, hText, hRest⟩
    rcases line with _ | ⟨a, _ | ⟨b, _ | ⟨c, line⟩⟩⟩
    · simp [word] at hText
    · simp [word] at hText
    · simp [word] at hText
    · simp only [word, String.reduceToList, List.cons_append,
        List.nil_append, List.cons.injEq] at hText
      rcases hText with ⟨rfl, rfl, rfl, rfl⟩
      refine ⟨line, rfl, ?_⟩
      cases line with
      | nil => rfl
      | cons d line => exact hRest
  · rintro ⟨rest, rfl, hRest⟩
    refine ⟨rest ++ '\n' :: more, by simp, ?_⟩
    cases rest with
    | nil => exact isWord_newline
    | cons d rest => exact hRest

/- Whether a placeholder starts is decided on its line. -/
theorem startsHere_line
    {cs line : List Char}
    {rest : List (List Char)}
    (hLines : lines cs = line :: rest) :
    startsHere line = startsHere cs := by
  rcases Text.eq_line_append hLines with rfl | ⟨more, rfl⟩
  · rfl
  · rw [startsHere_append_newline]

/- The scan of some lines continues that of the line before them. -/
theorem columns_rangesFrom_eq
    (before : List Char)
    {cs line : List Char}
    {rest : List (List Char)}
    (hLines : lines cs = line :: rest) :
    (columns before.getLast? (Position.after before).column line).map
        (rangeAt (Position.after before).line) ++
        rangesFrom ((Position.after before).line + 1) rest =
      (occurrences before cs).map rangeAfter := by
  induction cs generalizing before line rest with
  | nil =>
      simp only [lines, List.cons.injEq] at hLines
      rcases hLines with ⟨rfl, rfl⟩
      rfl
  | cons c cs ih =>
      obtain ⟨first, others, hTail⟩ := Text.exists_lines_eq_cons cs
      by_cases hChar : c = '\n'
      · subst hChar
        rw [Text.lines_newline, hTail, List.cons.injEq] at hLines
        rcases hLines with ⟨rfl, rfl⟩
        have hNext := ih (before ++ ['\n']) hTail
        rw [Position.after_append_newline, List.getLast?_concat] at hNext
        have hPrevious :
            columns (some '\n') 0 first = columns none 0 first := by
          cases first with
          | nil => rfl
          | cons d first => simp [columns, isWord_newline]
        rw [hPrevious] at hNext
        simpa [columns, rangesFrom, occurrences, startsHere] using hNext
      · rw [Text.lines_cons_of_ne hChar hTail, List.cons.injEq] at hLines
        rcases hLines with ⟨rfl, rfl⟩
        have hNext := ih (before ++ [c]) hTail
        rw [Position.after_append_char before hChar,
          List.getLast?_concat] at hNext
        have hStarts :
            startsHere (c :: first) = startsHere (c :: cs) :=
          startsHere_line (Text.lines_cons_of_ne hChar hTail)
        simp only [columns, occurrences, hStarts]
        split
        · rw [List.map_cons, List.cons_append, hNext, List.map_cons,
            rangeAfter_eq before]
        · exact hNext

/- The scan finds the whole-word placeholders of the text. -/
theorem ranges_eq
    (source : String) :
    ranges source = (occurrences [] source.toList).map rangeAfter := by
  obtain ⟨line, rest, hLines⟩ :=
    Text.exists_lines_eq_cons source.toList
  rw [← columns_rangesFrom_eq [] hLines, ranges, hLines]
  rfl

/- Every whole-word placeholder is found. -/
theorem rangeAfter_mem_ranges
    {source : String}
    {before rest : List Char}
    (hSource : source.toList = before ++ (word.toList ++ rest))
    (hStands : Stands before rest) :
    rangeAfter before ∈ ranges source := by
  rw [ranges_eq]
  refine List.mem_map_of_mem (mem_occurrences_iff.2 ?_)
  exact ⟨before, rest, rfl, by simp [hSource], hStands⟩

/- The range of a placeholder goes from the end of what comes before it. -/
theorem offset?_rangeAfter
    {source : String}
    {before : List Char}
    (hMem : before ∈ occurrences [] source.toList) :
    (rangeAfter before).start.offset? source =
        some (byteLength before) ∧
      (rangeAfter before).stop.offset? source =
        some (byteLength before + 3) := by
  rcases mem_occurrences_iff.1 hMem with ⟨_, rest, rfl, hSource, _⟩
  constructor
  · exact Position.offset?_eq_some_iff.2
      ⟨_, word.toList ++ rest, by simpa using hSource, rfl, rfl⟩
  · refine Position.offset?_eq_some_iff.2
      ⟨_, rest, by simpa using hSource, ?_, rfl⟩
    rw [Text.byteLength_append]
    rfl

theorem ranges_nodup
    (source : String) :
    (ranges source).Nodup := by
  rw [ranges_eq, List.Nodup, List.pairwise_map]
  refine (occurrences_pairwise [] source.toList).imp_of_mem ?_
  intro a b ha hb hApart hSame
  have hFirst := (offset?_rangeAfter ha).1
  rw [hSame, (offset?_rangeAfter hb).1, Option.some.injEq] at hFirst
  omega

end Placeholder

end ShapeTypes
