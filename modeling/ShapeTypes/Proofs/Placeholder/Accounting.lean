import Mathlib.Algebra.BigOperators.Group.List.Basic
import Mathlib.Algebra.GroupWithZero.Nat
import Mathlib.Data.List.Perm.Basic
import ShapeTypes.Proofs.Placeholder.Count
import ShapeTypes.Proofs.QuickFix.Edits

/-
  What edits of placeholders do to their number.

  A placeholder stands apart from the words around it.  So
  does any text in its place, and an edit takes one
  placeholder away and brings those of its new text.

  Key definitions include:
    * `ShapeTypes.Patch.Framed`

  Key theorems include:
    * `ShapeTypes.Patch.count_filled`
    * `ShapeTypes.Placeholder.exists_framed`
    * `ShapeTypes.Placeholder.exists_applied`
    * `ShapeTypes.TextEdit.length_scan_applyAll`
-/

------------------------------------------------------------
-- Patches Between Words
------------------------------------------------------------

namespace ShapeTypes

namespace Patch

open Placeholder (Stands Parted count)

/- Every stretch that is replaced stands apart from what is kept. -/
def Framed : List Patch → (last : List Char) → Prop
  | [], _ => True
  | patch :: patches, last =>
      Stands patch.kept (original patches ++ last) ∧ Framed patches last

variable {patches : List Patch} {last : List Char}

/-
  If a text that goes on with patches goes on with no word,
  it does so whatever stands in the place of placeholders.
-/
theorem head?_flatMap
    (hOld : ∀ patch ∈ patches, patch.old = Placeholder.word.toList)
    (hNext : (original patches ++ last).head?.any Text.isWord = false)
    (text : Patch → List Char) :
    (patches.flatMap (fun patch => patch.kept ++ text patch)
        ++ last).head?.any Text.isWord = false := by
  cases patches with
  | nil => exact hNext
  | cons patch patches =>
      rcases patch with ⟨kept, old, edit⟩
      cases kept with
      | nil =>
          have hWord : old = Placeholder.word.toList :=
            hOld _ List.mem_cons_self
          simp [original, hWord, Placeholder.word, Placeholder.isWord_a]
            at hNext
      | cons c kept => simpa [original] using hNext

/- The placeholders of what is kept and of what is put in add up. -/
theorem count_flatMap
    (hOld : ∀ patch ∈ patches, patch.old = Placeholder.word.toList)
    (hFramed : Framed patches last)
    (text : Patch → List Char) :
    count (patches.flatMap (fun patch => patch.kept ++ text patch)
        ++ last) =
      (patches.map fun patch => count patch.kept).sum +
        (patches.map fun patch => count (text patch)).sum +
          count last := by
  induction patches with
  | nil => simp
  | cons patch patches ih =>
      have hLater :
          ∀ p ∈ patches, p.old = Placeholder.word.toList :=
        fun p hp => hOld p (by simp [hp])
      rcases hFramed with ⟨⟨hBefore, hBehind⟩, hRest⟩
      have hAfter : Parted (text patch)
          (patches.flatMap (fun p => p.kept ++ text p) ++ last) :=
        Or.inr (head?_flatMap hLater hBehind text)
      have hFront : Parted patch.kept
          (text patch ++
            (patches.flatMap (fun p => p.kept ++ text p) ++ last)) :=
        Or.inl hBefore
      rw [List.flatMap_cons, List.append_assoc, List.append_assoc,
        Placeholder.count_append hFront, Placeholder.count_append hAfter,
        ih hLater hRest]
      simp only [List.map_cons, List.sum_cons]
      omega

/- Every placeholder that is replaced makes way for its new text. -/
theorem count_filled
    {edits : List TextEdit}
    (hOld : ∀ patch ∈ patches, patch.old = Placeholder.word.toList)
    (hFramed : Framed patches last)
    (hEdits : (patches.map (·.edit)).Perm edits) :
    count (filled edits patches ++ last) + edits.length =
      count (original patches ++ last) +
        (edits.map fun edit => count edit.newText.toList).sum := by
  have hNew :
      (patches.map fun patch =>
          count (if patch.edit ∈ edits then patch.edit.newText.toList
            else patch.old)) =
        (patches.map (·.edit)).map fun edit =>
          count edit.newText.toList := by
    rw [List.map_map, List.map_inj_left]
    intro patch hPatch
    have hMem : patch.edit ∈ edits :=
      hEdits.subset (List.mem_map_of_mem hPatch)
    simp [hMem]
  have hOnes :
      (patches.map fun patch => count patch.old).sum =
        edits.length := by
    have hOne :
        (patches.map fun patch => count patch.old) =
          patches.map fun _ => 1 := by
      rw [List.map_inj_left]
      intro patch hPatch
      rw [hOld patch hPatch, Placeholder.count_word]
    rw [hOne, ← hEdits.length_eq]
    simp
  rw [filled, original, count_flatMap hOld hFramed,
    count_flatMap hOld hFramed, hNew, hOnes, (hEdits.map _).sum_eq]
  omega

end Patch

end ShapeTypes

------------------------------------------------------------
-- Edits of Placeholders
------------------------------------------------------------

namespace ShapeTypes

namespace Placeholder

open Text (byteLength)

variable {source : String}

/- Where a scanned range starts, a placeholder stands. -/
theorem stands_of_mem_ranges
    {before rest : List Char}
    {range : SourceRange}
    (hSource : source.toList = before ++ (word.toList ++ rest))
    (hRange : range ∈ ranges source)
    (hStart : range.start.offset? source = some (byteLength before)) :
    Stands before rest := by
  rw [ranges_eq] at hRange
  rcases List.mem_map.1 hRange with ⟨text, hText, rfl⟩
  rcases mem_occurrences_iff.1 hText with
    ⟨_, after, rfl, hFound, hStands⟩
  have hOther : source.toList = text ++ (word.toList ++ after) := by
    simpa using hFound
  have hOffset :
      (rangeAfter text).start.offset? source = some (byteLength text) :=
    Position.offset?_eq_some_iff.2
      ⟨text, word.toList ++ after, hOther, rfl, rfl⟩
  have hLength : byteLength text = byteLength before := by
    rw [hOffset] at hStart
    exact Option.some.inj hStart
  have hHere :
      Text.splitAt? (byteLength before) source.toList =
        some (before, word.toList ++ rest) :=
    Text.splitAt?_eq_some_iff.2 ⟨hSource, rfl⟩
  rw [Text.splitAt?_eq_some_iff.2 ⟨hOther, hLength⟩, Option.some.injEq,
    Prod.mk.injEq, List.append_cancel_left_eq] at hHere
  rcases hHere with ⟨rfl, rfl⟩
  exact hStands

/- Patches of scanned placeholders stand apart from what is kept. -/
theorem framed_of_replaces
    (done : List Char)
    {last : List Char}
    {patches : List Patch}
    (hSource : source.toList = done ++ (Patch.original patches ++ last))
    (hOld : ∀ patch ∈ patches, patch.old = word.toList)
    (hRanges : ∀ patch ∈ patches, patch.edit.range ∈ ranges source)
    (hReplaces :
      ∀ e ∈ Patch.resolvedFrom (byteLength done) patches,
        e.Replaces source word.toList) :
    Patch.Framed patches last := by
  induction patches generalizing done with
  | nil => trivial
  | cons patch patches ih =>
      have hWord := hOld patch (by simp)
      have hPlace :
          source.toList =
            (done ++ patch.kept) ++
              (word.toList ++ (Patch.original patches ++ last)) := by
        rw [hSource]
        simp [Patch.original, hWord]
      have hFirst := hReplaces _ List.mem_cons_self
      have hStart :
          patch.edit.range.start.offset? source =
            some (byteLength (done ++ patch.kept)) := by
        rw [Text.byteLength_append]
        exact hFirst.1
      have hStands :=
        stands_of_mem_ranges hPlace (hRanges patch (by simp)) hStart
      refine ⟨⟨?_, hStands.2⟩, ?_⟩
      -- What is kept is empty, or ends as the text up to here does.
      · cases hKept : patch.kept with
        | nil => rfl
        | cons c kept =>
            have hLast := hStands.1
            rw [hKept, List.getLast?_append, List.getLast?_cons,
              Option.some_or] at hLast
            rw [List.getLast?_cons]
            exact hLast
      · refine ih (done ++ patch.kept ++ word.toList) ?_
          (fun p hp => hOld p (by simp [hp]))
          (fun p hp => hRanges p (by simp [hp])) ?_
        · simpa using hPlace
        · intro e he
          apply hReplaces e
          rw [Patch.resolvedFrom]
          refine List.mem_cons_of_mem _ ?_
          rw [hWord, ← Text.byteLength_append, ← Text.byteLength_append]
          exact he

/- Edits of different placeholders can be put in the order of the text. -/
theorem exists_ordered
    {edits : List TextEdit}
    (hDistinct : (edits.map (·.range)).Nodup)
    (hRanges : ∀ edit ∈ edits, edit.range ∈ ranges source) :
    ∃ ordered : List TextEdit,
      ordered.Perm edits ∧
        (ordered.map (·.range)).Sublist (ranges source) := by
  have hSubset : edits.map (·.range) ⊆ ranges source := by
    intro range hRange
    rcases List.mem_map.1 hRange with ⟨edit, hEdit, rfl⟩
    exact hRanges edit hEdit
  rcases List.subperm_of_subset hDistinct hSubset with
    ⟨sorted, hPerm, hSublist⟩
  have hSame :
      List.Forall₂ (fun range (edit : TextEdit) => range = edit.range)
        (edits.map (·.range)) edits := by
    rw [List.forall₂_map_left_iff, List.forall₂_same]
    exact fun _ _ => rfl
  rcases List.perm_comp_forall₂ hPerm hSame with
    ⟨ordered, hOrdered, hEdits⟩
  refine ⟨ordered, hEdits, ?_⟩
  rw [← List.forall₂_map_right_iff, List.forall₂_eq_eq_eq] at hOrdered
  rw [← hOrdered]
  exact hSublist

/-
  Edits of different placeholders cut a source into framed
  patches, and applying them fills the patches.
-/
theorem exists_framed
    {edits : List TextEdit}
    (hDistinct : (edits.map (·.range)).Nodup)
    (hRanges : ∀ edit ∈ edits, edit.range ∈ ranges source) :
    ∃ patches last,
      source.toList = Patch.original patches ++ last ∧
        (patches.map (·.edit)).Perm edits ∧
        (∀ patch ∈ patches, patch.old = word.toList) ∧
        Patch.Framed patches last ∧
        TextEdit.applyAll source edits =
          .ok (String.ofList (Patch.filled edits patches ++ last)) := by
  rcases exists_ordered hDistinct hRanges with
    ⟨ordered, hOrdered, hSublist⟩
  rw [ranges_eq, List.sublist_map_iff] at hSublist
  rcases hSublist with ⟨befores, hBefores, hSame⟩
  have hFollows :
      ∀ before ∈ befores,
        ∃ more, source.toList = before ++ (word.toList ++ more) := by
    intro before hBefore
    rcases mem_occurrences_iff.1 (hBefores.subset hBefore) with
      ⟨_, rest, rfl, hSource, _⟩
    exact ⟨rest, by simpa using hSource⟩
  rcases exists_patches (List.nil_append source.toList).symm hSame
      (fun _ _ => Nat.zero_le _)
      ((occurrences_pairwise [] source.toList).sublist hBefores)
      hFollows with
    ⟨patches, last, hSource, hEdits, hOld, hReplaces⟩
  rw [← hEdits] at hOrdered
  have hPlaced : ∀ patch ∈ patches, patch.edit.range ∈ ranges source := by
    intro patch hPatch
    exact hRanges _ (hOrdered.subset (List.mem_map_of_mem hPatch))
  refine ⟨patches, last, hSource, hOrdered, hOld, ?_, ?_⟩
  · exact framed_of_replaces [] hSource hOld hPlaced hReplaces
  · refine Patch.applyAll_eq_ok hSource ?_ ?_ hOrdered.symm.subperm
    · intro patch hPatch
      rw [hOld patch hPatch]
      decide
    · intro e he
      exact ResolvedEdit.resolve_of_replaces (hReplaces e he)

/-
  Edits of different placeholders apply.  Each takes one
  placeholder away and brings those of its new text.
-/
theorem exists_applied
    {edits : List TextEdit}
    (hDistinct : (edits.map (·.range)).Nodup)
    (hRanges : ∀ edit ∈ edits, edit.range ∈ ranges source) :
    ∃ text,
      TextEdit.applyAll source edits = .ok text ∧
        count text.toList + edits.length =
          count source.toList +
            (edits.map fun edit => count edit.newText.toList).sum := by
  rcases exists_framed hDistinct hRanges with
    ⟨patches, last, hSource, hEdits, hOld, hFramed, hApplied⟩
  refine ⟨_, hApplied, ?_⟩
  rw [String.toList_ofList, hSource]
  exact Patch.count_filled hOld hFramed hEdits

/- There are no more edits of different placeholders than placeholders. -/
theorem length_le_length_scan
    {edits : List TextEdit}
    (hDistinct : (edits.map (·.range)).Nodup)
    (hRanges : ∀ edit ∈ edits, edit.range ∈ ranges source) :
    edits.length ≤ (scan source).length := by
  have hSubperm : (edits.map (·.range)).Subperm (ranges source) := by
    apply List.subperm_of_subset hDistinct
    intro range hRange
    rcases List.mem_map.1 hRange with ⟨edit, hEdit, rfl⟩
    exact hRanges edit hEdit
  simpa [scan] using hSubperm.length_le

end Placeholder

------------------------------------------------------------
-- The Account
------------------------------------------------------------

namespace TextEdit

open Placeholder (scan)

/-
  Edits of different scanned placeholders apply, whatever they
  write.  The placeholders of the result are those that were
  not edited, and those of every new text by itself.
-/
theorem length_scan_applyAll
    {source : String}
    {edits : List TextEdit}
    (hDistinct : (edits.map (·.range)).Nodup)
    (hScanned :
      ∀ edit ∈ edits, edit.range ∈ (scan source).map (·.range)) :
    ∃ text,
      applyAll source edits = .ok text ∧
        edits.length ≤ (scan source).length ∧
        (scan text).length =
          (scan source).length - edits.length +
            (edits.map fun edit => (scan edit.newText).length).sum := by
  have hRanges :
      ∀ edit ∈ edits, edit.range ∈ Placeholder.ranges source := by
    intro edit hEdit
    simpa [scan, Placeholder.diagnostic] using hScanned edit hEdit
  have hFewer := Placeholder.length_le_length_scan hDistinct hRanges
  rcases Placeholder.exists_applied hDistinct hRanges with
    ⟨text, hApplied, hCount⟩
  refine ⟨text, hApplied, hFewer, ?_⟩
  simp only [Placeholder.length_scan] at hFewer ⊢
  omega

/- Two placeholders, of which the last is removed and the other doubled. -/
theorem length_scan_applyAll_doubled :
    ∃ text,
      applyAll "any.é any\n(any)"
          [⟨⟨⟨1, 1⟩, ⟨1, 4⟩⟩, ""⟩, ⟨⟨⟨0, 7⟩, ⟨0, 10⟩⟩, "any é\nany"⟩] =
        .ok text ∧
        2 ≤ (scan "any.é any\n(any)").length ∧
        (scan text).length = 3 - 2 + (0 + 2) := by
  rcases @length_scan_applyAll "any.é any\n(any)"
      [⟨⟨⟨1, 1⟩, ⟨1, 4⟩⟩, ""⟩, ⟨⟨⟨0, 7⟩, ⟨0, 10⟩⟩, "any é\nany"⟩]
      (by decide) (by decide) with
    ⟨text, hApplied, hFewer, hLength⟩
  refine ⟨text, hApplied, hFewer, hLength.trans ?_⟩
  decide

end TextEdit

end ShapeTypes
