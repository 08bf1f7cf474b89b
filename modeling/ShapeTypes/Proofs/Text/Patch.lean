import Mathlib.Data.List.Pairwise
import Mathlib.Data.List.Sort
import ShapeTypes.Text.Edit

/-
  Patches: a text cut into stretches that are kept and
  stretches that edits replace.

  Any choice of the edits, in any order, can be applied to
  the text, and replaces just the stretches of these edits.

  Key definitions include:
    * `ShapeTypes.Patch`
    * `ShapeTypes.Patch.original`
    * `ShapeTypes.Patch.filled`
    * `ShapeTypes.Patch.replaced`
    * `ShapeTypes.Patch.resolvedFrom`

  Key theorems include:
    * `ShapeTypes.Patch.foldr_replaceIn`
    * `ShapeTypes.Patch.applyAll_eq_ok`
-/

------------------------------------------------------------
-- Patches
------------------------------------------------------------

namespace ShapeTypes

/-
  A stretch of text that is kept, the stretch behind it, and
  the edit that replaces the latter.
-/
structure Patch where
  kept : List Char
  old : List Char
  edit : TextEdit

namespace Patch

open Text (byteLength)

/- The text before any edit. -/
def original
    (patches : List Patch) :
    List Char :=
  patches.flatMap fun patch => patch.kept ++ patch.old

/- The text after some of the edits. -/
def filled
    (chosen : List TextEdit)
    (patches : List Patch) :
    List Char :=
  patches.flatMap fun patch =>
    patch.kept ++
      if patch.edit ∈ chosen then patch.edit.newText.toList
      else patch.old

/- The text after all of the edits. -/
def replaced
    (patches : List Patch) :
    List Char :=
  patches.flatMap fun patch => patch.kept ++ patch.edit.newText.toList

theorem filled_all
    (patches : List Patch) :
    filled (patches.map (·.edit)) patches = replaced patches := by
  unfold filled replaced
  rw [List.flatMap_def, List.flatMap_def]
  congr 1
  apply List.map_congr_left
  intro patch hPatch
  rw [if_pos (List.mem_map_of_mem hPatch)]

/- The edits with their offsets, the first patch being at `offset`. -/
def resolvedFrom : (offset : Nat) → List Patch → List ResolvedEdit
  | _, [] => []
  | offset, patch :: patches =>
      let start := offset + byteLength patch.kept
      let stop := start + byteLength patch.old
      ⟨start, stop, patch.edit⟩ :: resolvedFrom stop patches

theorem map_edit_resolvedFrom
    (offset : Nat)
    (patches : List Patch) :
    (resolvedFrom offset patches).map (·.edit) = patches.map (·.edit) := by
  induction patches generalizing offset with
  | nil => rfl
  | cons patch patches ih => simp [resolvedFrom, ih]

end Patch

end ShapeTypes

------------------------------------------------------------
-- Replacement in Place
------------------------------------------------------------

namespace ShapeTypes

namespace Text

/- Of two starts of one text, the longer begins with the shorter. -/
theorem exists_eq_append_of_byteLength_le
    {done rest before more : List Char}
    (hText : done ++ rest = before ++ more)
    (hLength : byteLength done ≤ byteLength before) :
    ∃ kept, before = done ++ kept ∧ rest = kept ++ more := by
  rcases List.append_eq_append_iff.1 hText with
    ⟨kept, hBefore, hRest⟩ | ⟨extra, hDone, hMore⟩
  · exact ⟨kept, hBefore, hRest⟩
  · have hExtra : byteLength extra = 0 := by
      rw [hDone, Text.byteLength_append] at hLength
      omega
    cases extra with
    | nil => exact ⟨[], by simpa using hDone.symm, by simpa using hMore.symm⟩
    | cons c extra =>
        have hPos : 0 < c.utf8Size := Char.utf8Size_pos c
        simp only [byteLength] at hExtra
        omega

/- The text between the ends of two starts of a text. -/
theorem slice?_append
    (before old rest : List Char) :
    slice? (byteLength before) (byteLength before + byteLength old)
        (before ++ (old ++ rest)) =
      some old := by
  have hStart :
      splitAt? (byteLength before) (before ++ (old ++ rest)) =
        some (before, old ++ rest) :=
    splitAt?_eq_some_iff.2 ⟨rfl, rfl⟩
  have hStop :
      splitAt? (byteLength old) (old ++ rest) = some (old, rest) :=
    splitAt?_eq_some_iff.2 ⟨rfl, rfl⟩
  simp [slice?, hStart, hStop]

end Text

namespace Patch

open Text (byteLength)

/- What is replaced is the text between the two offsets. -/
theorem replaceRange_append
    (before old rest inserted : List Char) :
    Text.replaceRange (byteLength before)
        (byteLength before + byteLength old) inserted
        (before ++ (old ++ rest)) =
      before ++ inserted ++ rest := by
  have hStart :
      Text.splitAt? (byteLength before) (before ++ (old ++ rest)) =
        some (before, old ++ rest) :=
    Text.splitAt?_eq_some_iff.2 ⟨rfl, rfl⟩
  have hStop :
      Text.splitAt? (byteLength before + byteLength old)
          (before ++ (old ++ rest)) =
        some (before ++ old, rest) :=
    Text.splitAt?_eq_some_iff.2 ⟨by simp, by simp⟩
  simp only [Text.replaceRange, hStart, hStop]

/-
  Replacing from the last edit to the first fills in the
  chosen edits and nothing else.
-/
theorem foldr_replaceIn
    (chosen : List TextEdit)
    (patches : List Patch)
    (done last : List Char) :
    ((resolvedFrom (byteLength done) patches).filter
        (·.edit ∈ chosen)).foldr ResolvedEdit.replaceIn
        (done ++ (original patches ++ last)) =
      done ++ (filled chosen patches ++ last) := by
  induction patches generalizing done with
  | nil => rfl
  | cons patch patches ih =>
      have hLater := ih (done ++ patch.kept ++ patch.old)
      simp only [Text.byteLength_append] at hLater
      have hOriginal :
          done ++ (original (patch :: patches) ++ last) =
            done ++ patch.kept ++ patch.old ++
              (original patches ++ last) := by
        simp [original]
      rw [hOriginal, resolvedFrom]
      by_cases hChosen : patch.edit ∈ chosen
      · rw [List.filter_cons_of_pos (by simpa using hChosen),
          List.foldr_cons, hLater, ResolvedEdit.replaceIn]
        have hReplace :=
          replaceRange_append (done ++ patch.kept) patch.old
            (filled chosen patches ++ last) patch.edit.newText.toList
        simp only [Text.byteLength_append, List.append_assoc]
          at hReplace
        simp only [List.append_assoc, hReplace]
        simp [filled, hChosen]
      · rw [List.filter_cons_of_neg (by simpa using hChosen), hLater]
        simp [filled, hChosen]

end Patch

end ShapeTypes

------------------------------------------------------------
-- Order of Edits
------------------------------------------------------------

namespace ShapeTypes

namespace ResolvedEdit

theorem before_trans
    (a b c : ResolvedEdit)
    (hab : a.before b = true)
    (hbc : b.before c = true) :
    a.before c = true := by
  simp only [before, Bool.or_eq_true, decide_eq_true_eq,
    Bool.and_eq_true, beq_iff_eq] at hab hbc ⊢
  omega

theorem before_total
    (a b : ResolvedEdit) :
    (a.before b || b.before a) = true := by
  simp only [before, Bool.or_eq_true, decide_eq_true_eq,
    Bool.and_eq_true, beq_iff_eq]
  omega

/- One edit ends before the other starts. -/
def Apart
    (a b : ResolvedEdit) : Prop :=
  a.stop ≤ b.start ∨ b.stop ≤ a.start

instance : Std.Symm Apart where
  symm _ _ hApart := hApart.symm

/- One edit starts before the other. -/
def StartsBefore
    (a b : ResolvedEdit) : Prop :=
  a.start < b.start

instance : Std.Irrefl StartsBefore where
  irrefl e := Nat.lt_irrefl e.start

instance : Std.Antisymm StartsBefore where
  antisymm a b hab hba :=
    absurd hba (Nat.not_lt_of_lt (show a.start < b.start from hab))

/- Edits of which none reaches into a later one do not overlap. -/
theorem firstOverlap?_eq_none
    {edits : List ResolvedEdit}
    (hApart : edits.Pairwise fun a b => a.stop ≤ b.start) :
    firstOverlap? edits = none := by
  induction edits with
  | nil => rfl
  | cons a edits ih =>
      rcases List.pairwise_cons.1 hApart with ⟨hHead, hTail⟩
      cases edits with
      | nil => rfl
      | cons b edits =>
          have hLe : a.stop ≤ b.start := hHead b (by simp)
          rw [firstOverlap?, if_neg (by omega)]
          exact ih hTail

/- Edits of separate non-empty ranges are sorted in one way only. -/
theorem mergeSort_eq_of_perm
    {edits ordered : List ResolvedEdit}
    (hPerm : edits.Perm ordered)
    (hApart : ordered.Pairwise fun a b => a.stop ≤ b.start)
    (hProper : ∀ e ∈ ordered, e.start < e.stop) :
    edits.mergeSort before = ordered := by
  have hSorted : ordered.Pairwise fun a b => a.before b = true := by
    refine List.Pairwise.imp_of_mem ?_ hApart
    intro a b ha hb hLe
    have hStart := hProper a ha
    simp only [before, Bool.or_eq_true, decide_eq_true_eq,
      Bool.and_eq_true, beq_iff_eq]
    omega
  have hUnique :
      ∀ a b, a ∈ edits.mergeSort before → b ∈ ordered →
        a.before b = true → b.before a = true → a = b := by
    intro a b ha hb hab hba
    have ha' : a ∈ ordered :=
      hPerm.subset (List.mem_mergeSort.1 ha)
    by_contra hNe
    have hSeparate : ordered.Pairwise Apart :=
      hApart.imp Or.inl
    have hEither : Apart a b := hSeparate.forall ha' hb hNe
    have hStartA := hProper a ha'
    have hStartB := hProper b hb
    simp only [before, Bool.or_eq_true, decide_eq_true_eq,
      Bool.and_eq_true, beq_iff_eq] at hab hba
    unfold Apart at hEither
    omega
  exact List.Perm.eq_of_pairwise hUnique
    (List.pairwise_mergeSort before_trans before_total edits)
    hSorted ((List.mergeSort_perm edits before).trans hPerm)

end ResolvedEdit

end ShapeTypes

------------------------------------------------------------
-- Application of Chosen Edits
------------------------------------------------------------

namespace ShapeTypes

namespace Patch

open Text (byteLength)

/- The resolved edits lie behind the offset and one behind the other. -/
theorem resolvedFrom_apart
    {patches : List Patch}
    (offset : Nat)
    (hOld : ∀ patch ∈ patches, 0 < byteLength patch.old) :
    ((resolvedFrom offset patches).Pairwise fun a b =>
        a.stop ≤ b.start) ∧
      ∀ e ∈ resolvedFrom offset patches,
        offset ≤ e.start ∧ e.start < e.stop := by
  induction patches generalizing offset with
  | nil => simp [resolvedFrom]
  | cons patch patches ih =>
      have hHead := hOld patch (by simp)
      rcases ih
          (offset + byteLength patch.kept + byteLength patch.old)
          (fun p hp => hOld p (by simp [hp])) with
        ⟨hApart, hBehind⟩
      constructor
      · refine List.pairwise_cons.2 ⟨?_, hApart⟩
        intro e he
        exact (hBehind e he).1
      · intro e he
        rcases List.mem_cons.1 he with rfl | he
        · simp only
          omega
        · have hLater := hBehind e he
          omega

/- The offsets of an edit, where it has any. -/
def resolved
    (source : String)
    (edit : TextEdit) :
    ResolvedEdit :=
  ⟨(edit.range.start.offset? source).getD 0,
   (edit.range.stop.offset? source).getD 0, edit⟩

/- An edit resolves to its offsets. -/
theorem eq_resolved_of_resolve
    {source : String}
    {edit : TextEdit}
    {e : ResolvedEdit}
    (hResolve : TextEdit.resolve source edit = .ok e) :
    e = resolved source edit := by
  unfold TextEdit.resolve at hResolve
  split at hResolve
  · simp at hResolve
  · simp at hResolve
  · rename_i start stop hStart hStop
    split at hResolve
    · simp at hResolve
    · cases hResolve
      simp [resolved, hStart, hStop]

theorem resolveAll_eq_ok
    {source : String}
    {edits : List TextEdit}
    (hResolve :
      ∀ edit ∈ edits,
        TextEdit.resolve source edit = .ok (resolved source edit)) :
    TextEdit.resolveAll source edits =
      .ok (edits.map (resolved source)) := by
  induction edits with
  | nil => rfl
  | cons e edits ih =>
      rw [TextEdit.resolveAll, hResolve e (by simp),
        ih fun e he => hResolve e (by simp [he])]
      rfl

/- The edits of some patches resolve to the offsets of the patches. -/
theorem resolvedFrom_eq_map
    {source : String}
    {patches : List Patch}
    (hResolve :
      ∀ e ∈ resolvedFrom 0 patches,
        TextEdit.resolve source e.edit = .ok e) :
    resolvedFrom 0 patches =
      (patches.map (·.edit)).map (resolved source) := by
  rw [← map_edit_resolvedFrom 0, List.map_map]
  conv_lhs => rw [← List.map_id (resolvedFrom 0 patches)]
  apply List.map_congr_left
  intro e he
  exact eq_resolved_of_resolve (hResolve e he)

/- Edits that are chosen in order are found back by their membership. -/
theorem map_resolved_eq_filter
    {source : String}
    {patches : List Patch}
    {chosen : List TextEdit}
    (hOld : ∀ patch ∈ patches, 0 < byteLength patch.old)
    (hResolve :
      ∀ e ∈ resolvedFrom 0 patches,
        TextEdit.resolve source e.edit = .ok e)
    (hOrdered :
      (chosen.map (resolved source)).Sublist (resolvedFrom 0 patches)) :
    chosen.map (resolved source) =
      (resolvedFrom 0 patches).filter (·.edit ∈ chosen) := by
  rcases resolvedFrom_apart 0 hOld with ⟨hApart, hProper⟩
  have hIncreasing :
      (resolvedFrom 0 patches).Pairwise ResolvedEdit.StartsBefore := by
    refine hApart.imp_of_mem fun {a b} ha _ hLe => ?_
    exact Nat.lt_of_lt_of_le (hProper a ha).2 hLe
  -- Both sides are in order, so it is enough to compare their members.
  apply (hIncreasing.sublist hOrdered).eq_of_mem_iff
    (hIncreasing.sublist List.filter_sublist)
  intro e
  rw [List.mem_filter, decide_eq_true_eq]
  constructor
  · intro hMem
    refine ⟨hOrdered.subset hMem, ?_⟩
    rcases List.mem_map.1 hMem with ⟨edit, hEdit, rfl⟩
    exact hEdit
  · rintro ⟨hMem, hEdit⟩
    rw [eq_resolved_of_resolve (hResolve e hMem)]
    exact List.mem_map_of_mem hEdit

/-
  Any choice of the edits of some patches, in any order, is
  applied without failure and fills in just these edits.
-/
theorem applyAll_eq_ok
    {source : String}
    {patches : List Patch}
    {last : List Char}
    {edits : List TextEdit}
    (hSource : source.toList = original patches ++ last)
    (hOld : ∀ patch ∈ patches, 0 < byteLength patch.old)
    (hResolve :
      ∀ e ∈ resolvedFrom 0 patches,
        TextEdit.resolve source e.edit = .ok e)
    (hEdits : edits.Subperm (patches.map (·.edit))) :
    TextEdit.applyAll source edits =
      .ok (String.ofList (filled edits patches ++ last)) := by
  rcases resolvedFrom_apart 0 hOld with ⟨hApart, hProper⟩
  rcases hEdits with ⟨chosen, hPerm, hSublist⟩
  have hOrdered :
      (chosen.map (resolved source)).Sublist (resolvedFrom 0 patches) := by
    rw [resolvedFrom_eq_map hResolve]
    exact hSublist.map _
  have hResolveAll :
      TextEdit.resolveAll source edits =
        .ok (edits.map (resolved source)) := by
    apply resolveAll_eq_ok
    intro edit hEdit
    have hMem : resolved source edit ∈ resolvedFrom 0 patches :=
      hOrdered.subset (List.mem_map_of_mem (hPerm.mem_iff.2 hEdit))
    exact hResolve _ hMem
  have hSort :
      (edits.map (resolved source)).mergeSort ResolvedEdit.before =
        chosen.map (resolved source) :=
    ResolvedEdit.mergeSort_eq_of_perm (hPerm.symm.map _)
      (hApart.sublist hOrdered)
      fun e he => (hProper e (hOrdered.subset he)).2
  have hNoOverlap :
      ResolvedEdit.firstOverlap? (chosen.map (resolved source)) = none :=
    ResolvedEdit.firstOverlap?_eq_none (hApart.sublist hOrdered)
  have hChosen :
      chosen.map (resolved source) =
        (resolvedFrom 0 patches).filter (·.edit ∈ edits) := by
    rw [map_resolved_eq_filter hOld hResolve hOrdered]
    simp only [hPerm.mem_iff]
  rw [hChosen] at hSort hNoOverlap
  have hFill := foldr_replaceIn edits patches [] last
  simp only [List.nil_append, Text.byteLength] at hFill
  simp only [TextEdit.applyAll, hResolveAll, hSort, hNoOverlap, hSource,
    hFill]

end Patch

end ShapeTypes
