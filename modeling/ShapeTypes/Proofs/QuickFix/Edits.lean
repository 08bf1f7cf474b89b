import ShapeTypes.Proofs.Concrete.Layout
import ShapeTypes.Proofs.Placeholder.Occurrences
import ShapeTypes.Proofs.Text.Patch
import ShapeTypes.QuickFix

/-
  The edits of quick fixes.

  The fixes of a source cut it into stretches that are kept
  and placeholders that are replaced.  So any choice of the
  fixes can be applied, in any order.

  Key definitions include:
    * `ShapeTypes.ResolvedEdit.Replaces`

  Key theorems include:
    * `ShapeTypes.Placeholder.exists_patches`
    * `ShapeTypes.Engine.quickFixes_edits_apply`
-/

------------------------------------------------------------
-- What an Edit Replaces
------------------------------------------------------------

namespace ShapeTypes

namespace ResolvedEdit

open Text (byteLength)

/- The range of the edit has its offsets, with a text between them. -/
def Replaces
    (source : String)
    (old : List Char)
    (e : ResolvedEdit) : Prop :=
  e.edit.range.start.offset? source = some e.start ∧
    e.edit.range.stop.offset? source = some e.stop ∧
      Text.slice? e.start e.stop source.toList = some old

/- An edit whose range is that of a stretch replaces the stretch. -/
theorem replaces_of_range
    {source : String}
    {before old rest : List Char}
    {edit : TextEdit}
    (hSource : source.toList = before ++ (old ++ rest))
    (hRange :
      edit.range =
        ⟨Position.after before, Position.after (before ++ old)⟩) :
    Replaces source old
      ⟨byteLength before, byteLength before + byteLength old, edit⟩ := by
  refine ⟨?_, ?_, ?_⟩
  · rw [hRange]
    exact Position.offset?_eq_some_iff.2
      ⟨before, old ++ rest, hSource, rfl, rfl⟩
  · rw [hRange]
    exact Position.offset?_eq_some_iff.2
      ⟨before ++ old, rest, by simp [hSource], by simp, rfl⟩
  · rw [hSource]
    exact Text.slice?_append before old rest

/- An edit that replaces some text can be resolved. -/
theorem resolve_of_replaces
    {source : String}
    {old : List Char}
    {e : ResolvedEdit}
    (hReplaces : e.Replaces source old) :
    TextEdit.resolve source e.edit = .ok e := by
  rcases hReplaces with ⟨hStart, hStop, hSlice⟩
  have hOrder : ¬ e.stop < e.start := by
    intro hReversed
    simp [Text.slice?, Nat.not_le.2 hReversed] at hSlice
  simp [TextEdit.resolve, hStart, hStop, hOrder]

end ResolvedEdit

end ShapeTypes

------------------------------------------------------------
-- Placeholders as Patches
------------------------------------------------------------

namespace ShapeTypes

namespace Placeholder

open Text (byteLength)

/-
  Edits of placeholders that stand one behind the other make
  up patches of the text.
-/
theorem exists_patches
    {source : String}
    {done rest : List Char}
    {befores : List (List Char)}
    {edits : List TextEdit}
    (hSource : source.toList = done ++ rest)
    (hRanges : edits.map (·.range) = befores.map rangeAfter)
    (hBehind : ∀ before ∈ befores, byteLength done ≤ byteLength before)
    (hApart :
      befores.Pairwise fun a b => byteLength a + 3 ≤ byteLength b)
    (hFollows :
      ∀ before ∈ befores,
        ∃ more, source.toList = before ++ (word.toList ++ more)) :
    ∃ patches last,
      rest = Patch.original patches ++ last ∧
        patches.map (·.edit) = edits ∧
          (∀ patch ∈ patches, patch.old = word.toList) ∧
            ∀ e ∈ Patch.resolvedFrom (byteLength done) patches,
              e.Replaces source word.toList := by
  induction befores generalizing done rest edits with
  | nil =>
      have hEdits : edits = [] := by simpa using hRanges
      exact ⟨[], rest, by simp [Patch.original, Patch.resolvedFrom, hEdits]⟩
  | cons before befores ih =>
      cases edits with
      | nil => simp at hRanges
      | cons edit edits =>
          rw [List.map_cons, List.map_cons, List.cons.injEq] at hRanges
          rcases List.pairwise_cons.1 hApart with ⟨hNext, hLater⟩
          obtain ⟨more, hMore⟩ := hFollows before (by simp)
          obtain ⟨kept, rfl, hKept⟩ :=
            Text.exists_eq_append_of_byteLength_le
              (hSource.symm.trans hMore) (hBehind before (by simp))
          have hPassed :
              source.toList = (done ++ kept ++ word.toList) ++ more := by
            simpa using hMore
          have hWord : byteLength word.toList = 3 := by decide
          have hBeyond :
              ∀ b ∈ befores,
                byteLength (done ++ kept ++ word.toList) ≤ byteLength b := by
            intro b hb
            rw [Text.byteLength_append, hWord]
            exact hNext b hb
          rcases ih hPassed hRanges.2 hBeyond hLater
              (fun b hb => hFollows b (by simp [hb])) with
            ⟨patches, last, hRest, hEdits, hOld, hReplaces⟩
          refine
            ⟨⟨kept, word.toList, edit⟩ :: patches, last, ?_, ?_, ?_, ?_⟩
          · simp [hKept, hRest, Patch.original]
          · simp [hEdits]
          · simpa using hOld
          · intro e he
            rw [Patch.resolvedFrom] at he
            rcases List.mem_cons.1 he with rfl | he
            · rw [← Text.byteLength_append]
              exact ResolvedEdit.replaces_of_range hMore hRanges.1
            · rw [← Text.byteLength_append, ← Text.byteLength_append] at he
              exact hReplaces e he

end Placeholder

end ShapeTypes

------------------------------------------------------------
-- Application of Fixes
------------------------------------------------------------

namespace ShapeTypes

namespace Engine

/- A fix is about the placeholder that it is asked for. -/
theorem range_of_fixFor
    {engine : Engine}
    {store : Store}
    {root : NodeId}
    {range : SourceRange}
    {fix : QuickFix}
    (hFix : (engine.fixFor store root range).value = some fix) :
    fix.edit.range = range := by
  rw [value_fixFor, Option.bind_eq_some_iff] at hFix
  rcases hFix with ⟨located, -, hFix⟩
  split at hFix
  · simp at hFix
  · cases hFix
    rfl

/- Fixes that are found range by range keep the order of the ranges. -/
theorem map_range_filterMap_sublist
    {fixAt : SourceRange → Option QuickFix}
    (hFix : ∀ range fix, fixAt range = some fix → fix.edit.range = range)
    (ranges : List SourceRange) :
    ((ranges.filterMap fixAt).map (·.edit.range)).Sublist ranges := by
  induction ranges with
  | nil => exact List.Sublist.refl _
  | cons range ranges ih =>
      cases hAt : fixAt range with
      | none =>
          rw [List.filterMap_cons_none hAt]
          exact ih.cons range
      | some fix =>
          rw [List.filterMap_cons_some hAt, List.map_cons,
            hFix range fix hAt]
          exact ih.cons_cons range

/- The fixes are about some of the placeholders, in their order. -/
theorem ranges_sublist_of_quickFixes
    {engine : Engine}
    {table : TreeTable}
    {source : String}
    {fixes : List QuickFix}
    (hFixes : (engine.quickFixes table source).value = .ok fixes) :
    (fixes.map (·.edit.range)).Sublist (Placeholder.ranges source) := by
  rw [value_quickFixes] at hFixes
  split at hFixes
  · cases hFixes
    exact List.nil_sublist _
  · split at hFixes
    · simp at hFixes
    · cases hFixes
      apply map_range_filterMap_sublist
      intro range fix hFix
      rcases Option.bind_eq_some_iff.1 hFix with ⟨root, -, hFix⟩
      exact range_of_fixFor hFix

/-
  The fixes of a source cut it into stretches that are kept
  and placeholders, and the range of every fix has the offsets
  of its placeholder.
-/
theorem exists_patches_of_quickFixes
    {engine : Engine}
    {table : TreeTable}
    {source : String}
    {fixes : List QuickFix}
    (hFixes : (engine.quickFixes table source).value = .ok fixes) :
    ∃ patches last,
      source.toList = Patch.original patches ++ last ∧
        patches.map (·.edit) = fixes.map (·.edit) ∧
        (∀ patch ∈ patches, patch.old = Placeholder.word.toList) ∧
        ∀ e ∈ Patch.resolvedFrom 0 patches,
          e.Replaces source Placeholder.word.toList := by
  have hSublist := ranges_sublist_of_quickFixes hFixes
  rw [Placeholder.ranges_eq, List.sublist_map_iff] at hSublist
  rcases hSublist with ⟨befores, hBefores, hRanges⟩
  have hFollows :
      ∀ before ∈ befores,
        ∃ more,
          source.toList = before ++ (Placeholder.word.toList ++ more) := by
    intro before hBefore
    rcases Placeholder.mem_occurrences_iff.1 (hBefores.subset hBefore) with
      ⟨_, rest, rfl, hSource, _⟩
    exact ⟨rest, by simpa using hSource⟩
  have hEditRanges :
      (fixes.map (·.edit)).map (·.range) =
        befores.map Placeholder.rangeAfter := by
    rw [List.map_map]
    exact hRanges
  exact Placeholder.exists_patches (List.nil_append source.toList).symm
    hEditRanges (fun _ _ => Nat.zero_le _)
    ((Placeholder.occurrences_pairwise [] source.toList).sublist hBefores)
    hFollows

theorem byteLength_old_pos
    {patches : List Patch}
    (hOld : ∀ patch ∈ patches, patch.old = Placeholder.word.toList) :
    ∀ patch ∈ patches, 0 < Text.byteLength patch.old := by
  intro patch hPatch
  rw [hOld patch hPatch]
  decide

/- All fixes of a source together replace their placeholders. -/
theorem exists_replaced_of_quickFixes
    {engine : Engine}
    {table : TreeTable}
    {source : String}
    {fixes : List QuickFix}
    (hFixes : (engine.quickFixes table source).value = .ok fixes) :
    ∃ patches last,
      source.toList = Patch.original patches ++ last ∧
        patches.map (·.edit) = fixes.map (·.edit) ∧
        (∀ patch ∈ patches, patch.old = Placeholder.word.toList) ∧
        TextEdit.applyAll source (fixes.map (·.edit)) =
          .ok (String.ofList (Patch.replaced patches ++ last)) := by
  rcases exists_patches_of_quickFixes hFixes with
    ⟨patches, last, hSource, hEdits, hOld, hReplaces⟩
  refine ⟨patches, last, hSource, hEdits, hOld, ?_⟩
  rw [← hEdits, ← Patch.filled_all]
  exact Patch.applyAll_eq_ok hSource (byteLength_old_pos hOld)
    (fun e he => ResolvedEdit.resolve_of_replaces (hReplaces e he))
    (List.Subperm.refl _)

/-
  The fixes of a source cut it into stretches that are kept
  and placeholders.  The range of every fix has the offsets
  of its placeholder, the placeholders stand one behind the
  other, and any choice of the edits, in any order, replaces
  just the chosen placeholders.
-/
theorem quickFixes_edits_apply
    {engine : Engine}
    {table : TreeTable}
    {source : String}
    {fixes : List QuickFix}
    (hFixes : (engine.quickFixes table source).value = .ok fixes) :
    ∃ patches last,
      source.toList = Patch.original patches ++ last ∧
        patches.map (·.edit) = fixes.map (·.edit) ∧
        (∀ patch ∈ patches, patch.old = Placeholder.word.toList) ∧
        (∀ e ∈ Patch.resolvedFrom 0 patches,
          e.Replaces source Placeholder.word.toList) ∧
        ((Patch.resolvedFrom 0 patches).Pairwise fun a b =>
          a.start < b.start ∧ a.stop ≤ b.start) ∧
        ∀ edits : List TextEdit,
          edits.Subperm (fixes.map (·.edit)) →
            TextEdit.applyAll source edits =
              .ok (String.ofList (Patch.filled edits patches ++ last)) := by
  rcases exists_patches_of_quickFixes hFixes with
    ⟨patches, last, hSource, hEdits, hOld, hReplaces⟩
  have hProper := byteLength_old_pos hOld
  refine ⟨patches, last, hSource, hEdits, hOld, hReplaces, ?_, ?_⟩
  · rcases Patch.resolvedFrom_apart 0 hProper with ⟨hApart, hOrder⟩
    refine hApart.imp_of_mem fun {a b} ha _ hLe => ⟨?_, hLe⟩
    exact Nat.lt_of_lt_of_le (hOrder a ha).2 hLe
  · intro edits hChosen
    rw [← hEdits] at hChosen
    exact Patch.applyAll_eq_ok hSource hProper
      (fun e he => ResolvedEdit.resolve_of_replaces (hReplaces e he))
      hChosen

/- The fixes of the sample. -/
def sampleFixes : List QuickFix :=
  [.ofType ⟨⟨0, 8⟩, ⟨0, 11⟩⟩ (.record []),
    .ofType ⟨⟨0, 21⟩, ⟨0, 24⟩⟩ (.primitive .number)]

/- The second fix of the sample is applied without the first. -/
theorem quickFixes_edits_apply_sample :
    (({ } : Engine).quickFixes
        [⟨.ts, Concrete.Sample.source, Concrete.Sample.tree⟩]
        Concrete.Sample.source).value = .ok sampleFixes ∧
      ∃ patches last,
        Concrete.Sample.source.toList = Patch.original patches ++ last ∧
          patches.map (·.edit) = sampleFixes.map (·.edit) ∧
          TextEdit.applyAll Concrete.Sample.source
              ((sampleFixes.drop 1).map (·.edit)) =
            .ok (String.ofList
              (Patch.filled ((sampleFixes.drop 1).map (·.edit)) patches
                ++ last)) := by
  have hFixes :
      (({ } : Engine).quickFixes
        [⟨.ts, Concrete.Sample.source, Concrete.Sample.tree⟩]
        Concrete.Sample.source).value = .ok sampleFixes := by
    decide +kernel
  rcases quickFixes_edits_apply hFixes with
    ⟨patches, last, hSource, hEdits, -, -, -, hApply⟩
  exact ⟨hFixes, patches, last, hSource, hEdits,
    hApply _ (((List.drop_sublist 1 _).map _).subperm)⟩

end Engine

end ShapeTypes
