import Mathlib.Algebra.BigOperators.Group.List.Basic
import Mathlib.Algebra.GroupWithZero.Nat
import ShapeTypes.Proofs.Placeholder.Count
import ShapeTypes.Proofs.Placeholder.Offsets

/-
  Where in a text its placeholders are.

  A text can be made of other texts and of marks between
  them.  If no word reaches from one into the next, and the
  marks hold no placeholder, then the placeholders of the
  text are those of the texts it is made of, each at the spot
  where its text stands.

  Key definitions include:
    * `ShapeTypes.Placeholder.Spot`
    * `ShapeTypes.Placeholder.Covers`
    * `ShapeTypes.Placeholder.MadeOf`
    * `ShapeTypes.Placeholder.Wordless`

  Key theorems include:
    * `ShapeTypes.Placeholder.Covers.append`
    * `ShapeTypes.Placeholder.MadeOf.append`
    * `ShapeTypes.Placeholder.MadeOf.count_eq`
    * `ShapeTypes.Placeholder.MadeOf.intercalate`
-/

------------------------------------------------------------
-- Spots
------------------------------------------------------------

namespace ShapeTypes

namespace Placeholder

open Text (byteLength)

/- A text and the byte offset at which it starts in another. -/
structure Spot where
  start : Nat
  text : String
deriving DecidableEq, Repr

namespace Spot

/- The byte offset at which the text ends. -/
def stop
    (spot : Spot) :
    Nat :=
  spot.start + spot.text.utf8ByteSize

/- The spot behind some more bytes. -/
def moved
    (bytes : Nat)
    (spot : Spot) :
    Spot :=
  ⟨bytes + spot.start, spot.text⟩

/- The text stands at its spot. -/
def StandsIn
    (spot : Spot)
    (whole : List Char) : Prop :=
  ∃ before rest,
    whole = before ++ (spot.text.toList ++ rest) ∧
      byteLength before = spot.start

/- The placeholders of the text, by their offsets in the whole. -/
def offsets
    (spot : Spot) :
    List Nat :=
  (Placeholder.offsets spot.text).map (spot.start + ·)

variable {spot : Spot} {whole : List Char}

/- A spot stays where more is written behind. -/
theorem StandsIn.append
    (hStands : spot.StandsIn whole)
    (more : List Char) :
    spot.StandsIn (whole ++ more) := by
  rcases hStands with ⟨before, rest, rfl, hStart⟩
  exact ⟨before, rest ++ more, by simp, hStart⟩

/- A spot moves where more is written in front. -/
theorem StandsIn.moved
    (hStands : spot.StandsIn whole)
    (front : List Char) :
    (spot.moved (byteLength front)).StandsIn (front ++ whole) := by
  rcases hStands with ⟨before, rest, rfl, hStart⟩
  refine ⟨front ++ before, rest, by simp [Spot.moved], ?_⟩
  rw [Text.byteLength_append, hStart]
  rfl

/- A spot ends within the whole. -/
theorem StandsIn.stop_le
    (hStands : spot.StandsIn whole) :
    spot.stop ≤ byteLength whole := by
  rcases hStands with ⟨before, rest, rfl, hStart⟩
  rw [stop, ← hStart, ← Text.byteLength_toList, Text.byteLength_append,
    Text.byteLength_append]
  omega

end Spot

------------------------------------------------------------
-- Spots of All Placeholders
------------------------------------------------------------

/- The placeholders of two texts that are parted. -/
theorem starts_append
    {text rest : List Char}
    (hParted : Parted text rest) :
    starts (text ++ rest) =
      starts text ++ (starts rest).map (byteLength text + ·) := by
  rw [starts, occurrences_append [] hParted, List.nil_append,
    occurrences_of_parted hParted, List.map_append, List.map_map, starts,
    starts, List.map_map]
  congr 1
  apply List.map_congr_left
  intro before _
  exact Text.byteLength_append text before

/- Spots of a text, one behind the other, with all its placeholders. -/
structure Covers
    (spots : List Spot)
    (text : List Char) : Prop where
  stands : ∀ spot ∈ spots, spot.StandsIn text
  apart : spots.Pairwise fun a b => a.stop ≤ b.start
  all : starts text = spots.flatMap Spot.offsets

namespace Covers

/- A text is a spot of its own. -/
theorem whole
    (text : String) :
    Covers [⟨0, text⟩] text.toList := by
  refine ⟨?_, List.pairwise_singleton _ _, ?_⟩
  · intro spot hSpot
    rw [List.mem_singleton.1 hSpot]
    exact ⟨[], [], by simp, rfl⟩
  · simp [Spot.offsets, offsets_eq]

/- A text without placeholders needs no spot. -/
theorem quiet
    {text : List Char}
    (hQuiet : count text = 0) :
    Covers [] text := by
  refine ⟨by simp, List.Pairwise.nil, ?_⟩
  rw [starts, List.length_eq_zero_iff.1 hQuiet]
  rfl

/- The spots of two texts that are parted. -/
theorem append
    {first second : List Spot}
    {text rest : List Char}
    (hFirst : Covers first text)
    (hSecond : Covers second rest)
    (hParted : Parted text rest) :
    Covers (first ++ second.map (Spot.moved (byteLength text)))
      (text ++ rest) := by
  constructor
  · intro spot hSpot
    rcases List.mem_append.1 hSpot with hSpot | hSpot
    · exact (hFirst.stands spot hSpot).append rest
    · rcases List.mem_map.1 hSpot with ⟨inner, hInner, rfl⟩
      exact (hSecond.stands inner hInner).moved text
  · rw [List.pairwise_append, List.pairwise_map]
    refine ⟨hFirst.apart, hSecond.apart.imp ?_, ?_⟩
    · intro a b hApart
      simp only [Spot.stop, Spot.moved] at hApart ⊢
      omega
    · intro a ha b hb
      rcases List.mem_map.1 hb with ⟨inner, -, rfl⟩
      exact Nat.le_trans (hFirst.stands a ha).stop_le
        (Nat.le_add_right _ _)
  · rw [starts_append hParted, hFirst.all, hSecond.all,
      List.flatMap_append, List.flatMap_map, List.map_flatMap]
    congr 1
    apply List.flatMap_congr
    intro spot _
    simp [Spot.offsets, Spot.moved, Nat.add_assoc]

end Covers

------------------------------------------------------------
-- Texts Made of Texts
------------------------------------------------------------

/-
  A text has spots for some texts, in any order, with all its
  placeholders.
-/
def MadeOf
    (texts : List String)
    (whole : List Char) : Prop :=
  ∃ spots, Covers spots whole ∧ (spots.map Spot.text).Perm texts

namespace MadeOf

variable {texts others : List String} {text rest : List Char}

theorem whole
    (text : String) :
    MadeOf [text] text.toList :=
  ⟨_, .whole text, .refl _⟩

theorem quiet
    (hQuiet : count text = 0) :
    MadeOf [] text :=
  ⟨[], .quiet hQuiet, .refl _⟩

theorem perm
    (hMade : MadeOf texts text)
    (hPerm : texts.Perm others) :
    MadeOf others text := by
  rcases hMade with ⟨spots, hCovers, hTexts⟩
  exact ⟨spots, hCovers, hTexts.trans hPerm⟩

theorem append
    (hFirst : MadeOf texts text)
    (hSecond : MadeOf others rest)
    (hParted : Parted text rest) :
    MadeOf (texts ++ others) (text ++ rest) := by
  rcases hFirst with ⟨first, hFirst, hTexts⟩
  rcases hSecond with ⟨second, hSecond, hOthers⟩
  refine ⟨_, hFirst.append hSecond hParted, ?_⟩
  rw [List.map_append, List.map_map]
  exact hTexts.append hOthers

/- The placeholders of a text are as many as those of the texts. -/
theorem count_eq
    (hMade : MadeOf texts text) :
    count text = (texts.map fun text => count text.toList).sum := by
  rcases hMade with ⟨spots, hCovers, hTexts⟩
  have hLength := congrArg List.length hCovers.all
  rw [starts, List.length_map, List.length_flatMap] at hLength
  rw [← (hTexts.map _).sum_eq, List.map_map, count, hLength]
  congr 1
  apply List.map_congr_left
  intro spot _
  simp [Spot.offsets, offsets_eq, starts, count]

end MadeOf

------------------------------------------------------------
-- Marks Between Texts
------------------------------------------------------------

/- No character of a text belongs to a word. -/
def Wordless
    (text : List Char) : Prop :=
  text.all (fun c => !Text.isWord c) = true

instance : DecidablePred Wordless := fun text =>
  inferInstanceAs (Decidable (text.all (fun c => !Text.isWord c) = true))

namespace Wordless

variable {mark text rest : List Char}

/- No character of a mark is a word character. -/
theorem isWord_of_mem
    {c : Char}
    (hMark : Wordless mark)
    (hMem : c ∈ mark) :
    Text.isWord c = false := by
  simpa using List.all_eq_true.1 hMark c hMem

/- A mark does not reach into what follows. -/
theorem parted_left
    (hMark : Wordless mark) :
    Parted mark rest := by
  left
  cases hLast : mark.getLast? with
  | none => rfl
  | some c => exact hMark.isWord_of_mem (List.mem_of_getLast? hLast)

/- What comes before a mark does not reach into it. -/
theorem parted_right
    (hMark : Wordless mark)
    (hProper : mark ≠ []) :
    Parted text (mark ++ rest) := by
  right
  cases mark with
  | nil => exact absurd rfl hProper
  | cons c mark => exact hMark.isWord_of_mem (List.mem_cons_self ..)

/- What ends with a mark does not reach into what follows. -/
theorem parted_append
    (hMark : Wordless mark)
    (hProper : mark ≠ []) :
    Parted (text ++ mark) rest := by
  left
  rw [List.getLast?_append_of_ne_nil _ hProper,
    List.getLast?_eq_some_getLast hProper]
  exact hMark.isWord_of_mem (List.getLast_mem hProper)

/- Two marks make up one. -/
theorem append
    {other : List Char}
    (hMark : Wordless mark)
    (hOther : Wordless other) :
    Wordless (mark ++ other) := by
  unfold Wordless at hMark hOther ⊢
  rw [List.all_append, hMark, hOther]
  rfl

/- There is no placeholder without a word. -/
theorem count_eq_zero
    (hMark : Wordless mark) :
    count mark = 0 := by
  rw [count, List.length_eq_zero_iff, List.eq_nil_iff_forall_not_mem]
  intro before hMem
  rcases mem_occurrences_iff.1 hMem with ⟨more, rest, -, rfl, -⟩
  have hLetter := hMark.isWord_of_mem (c := 'a') (by simp [word])
  rw [isWord_a] at hLetter
  cases hLetter

end Wordless

namespace MadeOf

variable {texts others : List String} {text rest mark : List Char}

/- A mark in front changes nothing. -/
theorem mark_append
    (hText : MadeOf texts text)
    (hMark : Wordless mark) :
    MadeOf texts (mark ++ text) :=
  (quiet hMark.count_eq_zero).append hText hMark.parted_left

/- A mark parts two texts. -/
theorem between
    (hText : MadeOf texts text)
    (hRest : MadeOf others rest)
    (hMark : Wordless mark)
    (hProper : mark ≠ []) :
    MadeOf (texts ++ others) (text ++ (mark ++ rest)) :=
  hText.append (hRest.mark_append hMark) (hMark.parted_right hProper)

/- A mark behind changes nothing. -/
theorem append_mark
    (hText : MadeOf texts text)
    (hMark : Wordless mark) :
    MadeOf texts (text ++ mark) := by
  by_cases hProper : mark = []
  · rwa [hProper, List.append_nil]
  · have hBoth :=
      hText.between (quiet rfl : MadeOf [] []) hMark hProper
    rwa [List.append_nil, List.append_nil] at hBoth

/- Joined texts are made of what each of them is made of. -/
theorem intercalate
    {α : Type}
    {items : List α}
    {text : α → String}
    {texts : α → List String}
    {separator : String}
    (hItems : ∀ item ∈ items, MadeOf (texts item) (text item).toList)
    (hSeparator : Wordless separator.toList)
    (hProper : separator.toList ≠ []) :
    MadeOf (items.flatMap texts)
      (separator.intercalate (items.map text)).toList := by
  induction items with
  | nil => exact quiet rfl
  | cons item items ih =>
      rcases List.forall_mem_cons.1 hItems with ⟨hItem, hItems⟩
      rw [List.map_cons, List.flatMap_cons]
      by_cases hLast : items = []
      · simpa [hLast] using hItem
      · rw [String.intercalate_cons_of_ne_nil (by simpa using hLast),
          String.toList_append, String.toList_append, List.append_assoc]
        exact hItem.between (ih hItems) hSeparator hProper

end MadeOf

end Placeholder

end ShapeTypes
