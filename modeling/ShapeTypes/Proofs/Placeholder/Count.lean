import ShapeTypes.Proofs.Placeholder.Occurrences

/-
  The number of placeholders in a text.

  Where no word reaches over the border of two texts, none of
  their placeholders is lost when the texts are put together,
  and none is new.

  Key definitions include:
    * `ShapeTypes.Placeholder.count`
    * `ShapeTypes.Placeholder.Parted`

  Key theorems include:
    * `ShapeTypes.Placeholder.length_scan`
    * `ShapeTypes.Placeholder.occurrences_append`
    * `ShapeTypes.Placeholder.occurrences_of_parted`
    * `ShapeTypes.Placeholder.count_append`
-/

namespace ShapeTypes

namespace Placeholder

------------------------------------------------------------
-- Borders Between Words
------------------------------------------------------------

/- No word reaches from one text into the next. -/
def Parted
    (before rest : List Char) : Prop :=
  before.getLast?.any Text.isWord = false ∨
    rest.head?.any Text.isWord = false

namespace Parted

variable {before rest text : List Char} {c : Char}

/- Nothing reaches out of an empty text. -/
theorem nil_left : Parted [] rest :=
  Or.inl rfl

/- The border stays where the front of a text is left out. -/
theorem tail
    (hParted : Parted (c :: text) rest) :
    Parted text rest := by
  cases text with
  | nil => exact nil_left
  | cons d text =>
      rcases hParted with hBefore | hRest
      · rw [List.getLast?_cons_cons] at hBefore
        exact Or.inl hBefore
      · exact Or.inr hRest

/- A border between two word characters parts nothing. -/
theorem not_between
    {d : Char}
    (hBefore : before.getLast? = some c)
    (hLast : Text.isWord c = true)
    (hFirst : Text.isWord d = true) :
    ¬ Parted before (d :: rest) := by
  rintro (hWord | hWord)
  · rw [hBefore, Option.any_some, hLast] at hWord
    simp at hWord
  · rw [List.head?_cons, Option.any_some, hFirst] at hWord
    simp at hWord

end Parted

/- The characters of the placeholder belong to words. -/
theorem isWord_a : Text.isWord 'a' = true := by
  decide

theorem isWord_n : Text.isWord 'n' = true := by
  decide

theorem isWord_y : Text.isWord 'y' = true := by
  decide

variable {text rest : List Char}

/- A text behind a border does not matter for what starts before it. -/
theorem startsHere_append
    (hText : text ≠ [])
    (hParted : Parted text rest) :
    startsHere (text ++ rest) = startsHere text := by
  rw [Bool.eq_iff_iff, startsHere_eq_true_iff, startsHere_eq_true_iff]
  constructor
  · rintro ⟨more, hMore, hEnds⟩
    simp only [word, String.reduceToList, List.cons_append,
      List.nil_append] at hMore ⊢
    -- With less than three characters, the word goes over the border.
    rcases text with _ | ⟨a, _ | ⟨b, _ | ⟨c, text⟩⟩⟩
    · exact absurd rfl hText
    · simp only [List.cons_append, List.nil_append, List.cons.injEq]
        at hMore
      rcases hMore with ⟨rfl, rfl⟩
      exact absurd hParted (Parted.not_between rfl isWord_a isWord_n)
    · simp only [List.cons_append, List.nil_append, List.cons.injEq]
        at hMore
      rcases hMore with ⟨rfl, rfl, rfl⟩
      exact absurd hParted (Parted.not_between rfl isWord_n isWord_y)
    · simp only [List.cons_append, List.cons.injEq] at hMore
      rcases hMore with ⟨rfl, rfl, rfl, rfl⟩
      refine ⟨text, rfl, ?_⟩
      cases text with
      | nil => rfl
      | cons d text => exact hEnds
  · rintro ⟨more, rfl, hEnds⟩
    refine ⟨more ++ rest, by simp, ?_⟩
    cases more with
    | nil =>
        rcases hParted with hBefore | hRest
        · simp [word, isWord_y] at hBefore
        · exact hRest
    | cons d more => exact hEnds

------------------------------------------------------------
-- Counting
------------------------------------------------------------

/- The placeholders before a border are those of the first text. -/
theorem occurrences_append
    (before : List Char)
    (hParted : Parted text rest) :
    occurrences before (text ++ rest) =
      occurrences before text ++ occurrences (before ++ text) rest := by
  induction text generalizing before with
  | nil => simp [occurrences]
  | cons c text ih =>
      have hStarts := startsHere_append (List.cons_ne_nil c text) hParted
      rw [List.cons_append] at hStarts
      rw [List.cons_append, occurrences, occurrences, hStarts,
        ih (before ++ [c]) hParted.tail, List.append_cons before c text]
      split
      · rfl
      · rfl

/- Only whether a word ends before a text matters for its placeholders. -/
theorem occurrences_append_left
    {front before : List Char}
    (hLast :
      (front ++ before).getLast?.any Text.isWord =
        before.getLast?.any Text.isWord)
    (rest : List Char) :
    occurrences (front ++ before) rest =
      (occurrences before rest).map (front ++ ·) := by
  induction rest generalizing before with
  | nil => rfl
  | cons c rest ih =>
      have hNext :
          occurrences (front ++ before ++ [c]) rest =
            (occurrences (before ++ [c]) rest).map (front ++ ·) := by
        rw [List.append_assoc]
        apply ih
        rw [← List.append_assoc, List.getLast?_concat,
          List.getLast?_concat]
      simp only [occurrences, hLast, hNext]
      split
      · rfl
      · rfl

/- Nothing before a border matters for what comes behind it. -/
theorem occurrences_of_parted
    {before : List Char}
    (hParted : Parted before rest) :
    occurrences before rest = (occurrences [] rest).map (before ++ ·) := by
  rcases hParted with hBefore | hRest
  · have hLast :
        (before ++ []).getLast?.any Text.isWord =
          ([] : List Char).getLast?.any Text.isWord := by
      rw [List.append_nil, hBefore]
      rfl
    simpa using occurrences_append_left hLast rest
  · cases rest with
    | nil => rfl
    | cons c rest =>
        have hNot : startsHere (c :: rest) = false := by
          rw [Bool.eq_false_iff, ne_eq, startsHere_eq_true_iff]
          rintro ⟨more, hMore, -⟩
          have hFirst : c = 'a' := by
            simpa [word] using congrArg List.head? hMore
          rw [hFirst, List.head?_cons, Option.any_some, isWord_a] at hRest
          simp at hRest
        have hNext :
            occurrences (before ++ [c]) rest =
              (occurrences [c] rest).map (before ++ ·) := by
          apply occurrences_append_left
          rw [List.getLast?_concat, List.getLast?_singleton]
        simpa [occurrences, hNot] using hNext

/- The number of whole-word placeholders in a text. -/
def count
    (text : List Char) :
    Nat :=
  (occurrences [] text).length

theorem length_scan
    (source : String) :
    (scan source).length = count source.toList := by
  rw [scan, List.length_map, ranges_eq, List.length_map, count]

@[simp]
theorem count_word : count word.toList = 1 := by
  decide

/- The placeholders of two texts that are parted add up. -/
theorem count_append
    (hParted : Parted text rest) :
    count (text ++ rest) = count text + count rest := by
  rw [count, occurrences_append [] hParted, List.length_append,
    List.nil_append, occurrences_of_parted hParted, List.length_map]
  rfl

end Placeholder

end ShapeTypes
