import Mathlib.Algebra.BigOperators.Group.List.Basic
import Mathlib.Algebra.GroupWithZero.Nat
import ShapeTypes.Proofs.Descriptor.Names
import ShapeTypes.Proofs.Inference.Closure
import ShapeTypes.Proofs.Placeholder.Accounting
import ShapeTypes.Proofs.QuickFix.Agreement

/-
  The placeholders that fixing leaves.

  A fix takes one placeholder away and writes a type.  The
  named types of the default engine hold no placeholder.  The
  names of fields and parameters may, since they are written
  as the source has them, so that fixing can bring new ones.

  Key definitions include:
    * `ShapeTypes.Engine.Settled`
    * `ShapeTypes.Engine.namesWritten`

  Key theorems include:
    * `ShapeTypes.Engine.everywhere_inferAt`
    * `ShapeTypes.Engine.settled_default`
    * `ShapeTypes.Engine.Settled.exists_applied`
    * `ShapeTypes.Engine.length_scan_quickFixes`
-/

------------------------------------------------------------
-- The Types That Fixes Write
------------------------------------------------------------

namespace ShapeTypes

namespace Engine

open Descriptor (Everywhere IsSettled)
open Placeholder (count scan)

/- No named type that the engine writes holds a placeholder. -/
def Settled
    (engine : Engine) : Prop :=
  ∀ text, engine.Writes text → count text.toList = 0

/- The names of fields and parameters in the type that a fix writes. -/
def namesWritten
    (engine : Engine)
    (table : TreeTable)
    (source : String)
    (fix : QuickFix) :
    List String :=
  (engine.inferAt table source fix.edit.range).value.names

variable {engine : Engine} {table : TreeTable} {source : String}

theorem everywhere_inferTarget
    (engine : Engine)
    (store : Store)
    (target : Option NodeId) :
    (engine.inferTarget store target).value.Everywhere engine.Known := by
  cases target with
  | none => exact everywhere_unknown
  | some id => exact (passes_known engine store).infer id

theorem everywhere_inferIn
    (engine : Engine)
    (store : Store)
    (range : SourceRange) :
    (engine.inferIn store range).value.Everywhere engine.Known := by
  cases hRoot : store.root with
  | none =>
      unfold inferIn
      rw [hRoot]
      exact everywhere_unknown
  | some root =>
      rw [value_inferIn hRoot]
      cases (store.locate range root).value with
      | none => exact everywhere_unknown
      | some located => exact engine.everywhere_inferTarget store _

theorem everywhere_inferAt
    (engine : Engine)
    (table : TreeTable)
    (source : String)
    (range : SourceRange) :
    (engine.inferAt table source range).value.Everywhere
      engine.Known := by
  cases hParsed : (table.parseLinked source).value with
  | error refusal =>
      have hUnknown :
          (engine.inferAt table source range).value = .unknown := by
        simp [inferAt, tryInferAt, hParsed]
      rw [hUnknown]
      exact everywhere_unknown
  | ok store =>
      rw [value_inferAt hParsed]
      exact engine.everywhere_inferIn store range

/- Only regular expressions and one call have a default named type. -/
theorem settled_default :
    Settled { } := by
  intro text hWrites
  have hUnknown : Descriptor.ofText "unknown" = .unknown := by decide
  have hElement :
      Descriptor.ofText "HTMLElement | null" =
        .named "HTMLElement | null" := by
    decide
  rcases hWrites with rfl | hParameter | ⟨pattern, hPattern, hCall⟩
  · decide
  · cases hUnknown.symm.trans hParameter
  · rw [List.mem_singleton.1 hPattern] at hCall
    cases hElement.symm.trans hCall
    decide

/- A known type has no placeholder in its named types. -/
theorem Settled.everywhere
    {type : Descriptor}
    (hSettled : engine.Settled)
    (hKnown : type.Everywhere engine.Known) :
    type.Everywhere IsSettled := by
  apply hKnown.imp
  intro inner hInner
  cases inner with
  | named text => exact hSettled text (hInner text rfl)
  | _ => trivial

/- A fix writes the type at its range. -/
theorem newText_of_mem_quickFixes
    {fixes : List QuickFix}
    {fix : QuickFix}
    (hFixes : (engine.quickFixes table source).value = .ok fixes)
    (hFix : fix ∈ fixes) :
    fix.edit.newText =
      (engine.inferAt table source fix.edit.range).value.render :=
  congrArg (·.edit.newText) (eq_ofType_of_mem_quickFixes hFixes hFix)

/- A fix writes the placeholders of the names that it writes. -/
theorem Settled.count_newText
    {fixes : List QuickFix}
    {fix : QuickFix}
    (hSettled : engine.Settled)
    (hFixes : (engine.quickFixes table source).value = .ok fixes)
    (hFix : fix ∈ fixes) :
    count fix.edit.newText.toList =
      ((engine.namesWritten table source fix).map fun name =>
        count name.toList).sum := by
  have hKnown := engine.everywhere_inferAt table source fix.edit.range
  rw [newText_of_mem_quickFixes hFixes hFix, Descriptor.count_render,
    Descriptor.sum_texts_of_settled (hSettled.everywhere hKnown),
    namesWritten]

------------------------------------------------------------
-- The Placeholders That Are Left
------------------------------------------------------------

theorem nodup_ranges_of_quickFixes
    {fixes : List QuickFix}
    (hFixes : (engine.quickFixes table source).value = .ok fixes) :
    ((fixes.map (·.edit)).map (·.range)).Nodup := by
  rw [List.map_map]
  exact (ranges_sublist_of_quickFixes hFixes).nodup
    (Placeholder.ranges_nodup source)

theorem range_mem_of_quickFixes
    {fixes : List QuickFix}
    (hFixes : (engine.quickFixes table source).value = .ok fixes) :
    ∀ edit ∈ fixes.map (·.edit), edit.range ∈ Placeholder.ranges source := by
  intro edit hEdit
  rcases List.mem_map.1 hEdit with ⟨fix, hFix, rfl⟩
  exact (ranges_sublist_of_quickFixes hFixes).subset
    (List.mem_map_of_mem hFix)

/-
  The fixes of an engine apply.  Each takes one placeholder
  away and brings those of the names that it writes.
-/
theorem Settled.exists_applied
    {fixes : List QuickFix}
    (hSettled : engine.Settled)
    (hFixes : (engine.quickFixes table source).value = .ok fixes) :
    ∃ text,
      TextEdit.applyAll source (fixes.map (·.edit)) = .ok text ∧
        count text.toList + fixes.length =
          count source.toList +
            ((fixes.flatMap (engine.namesWritten table source)).map
              fun name => count name.toList).sum := by
  rcases Placeholder.exists_applied (nodup_ranges_of_quickFixes hFixes)
      (range_mem_of_quickFixes hFixes) with
    ⟨text, hApplied, hCount⟩
  refine ⟨text, hApplied, ?_⟩
  rw [List.length_map, List.map_map] at hCount
  rw [hCount, List.map_flatMap, List.flatMap_def, List.sum_flatten,
    List.map_map]
  congr 2
  apply List.map_congr_left
  intro fix hFix
  exact hSettled.count_newText hFixes hFix

/-
  The fixes of the default engine apply.  The placeholders of
  the result are those that were not fixed, and those of the
  names of fields and parameters in the types that are
  written.
-/
theorem length_scan_quickFixes
    {table : TreeTable}
    {source : String}
    {fixes : List QuickFix}
    (hFixes :
      (({ } : Engine).quickFixes table source).value = .ok fixes) :
    ∃ text,
      TextEdit.applyAll source (fixes.map (·.edit)) = .ok text ∧
        fixes.length ≤ (scan source).length ∧
        (∀ fix ∈ fixes,
          fix.edit.newText =
            (({ } : Engine).inferAt table source
              fix.edit.range).value.render) ∧
        (scan text).length =
          (scan source).length - fixes.length +
            ((fixes.flatMap
                (({ } : Engine).namesWritten table source)).map
              fun name => (scan name).length).sum := by
  have hFewer :=
    Placeholder.length_le_length_scan (nodup_ranges_of_quickFixes hFixes)
      (range_mem_of_quickFixes hFixes)
  rcases settled_default.exists_applied hFixes with
    ⟨text, hApplied, hCount⟩
  rw [List.length_map] at hFewer
  refine ⟨text, hApplied, hFewer, ?_, ?_⟩
  · intro fix hFix
    exact newText_of_mem_quickFixes hFixes hFix
  · simp only [Placeholder.length_scan] at hFewer ⊢
    omega

open Concrete.Sample (keySource keyTable keyFix)

/- The placeholder of an annotation goes, and a key of that name comes. -/
theorem length_scan_quickFixes_key :
    (({ } : Engine).quickFixes keyTable keySource).value = .ok [keyFix] ∧
      ∃ text,
        TextEdit.applyAll keySource [keyFix.edit] = .ok text ∧
          (scan text).length = 2 - 1 + 1 := by
  have hFixes :
      (({ } : Engine).quickFixes keyTable keySource).value =
        .ok [keyFix] := by
    decide +kernel
  have hNames :
      ({ } : Engine).namesWritten keyTable keySource keyFix =
        ["any"] := by
    decide +kernel
  rcases length_scan_quickFixes hFixes with ⟨text, hApplied, -, -, hLength⟩
  refine ⟨hFixes, text, hApplied, hLength.trans ?_⟩
  rw [List.flatMap_singleton, hNames]
  decide

/-
  Fixing a declaration does not make one placeholder less, if
  the type that it writes has a key of that name.
-/
theorem length_scan_ne_of_key :
    (({ } : Engine).quickFixes keyTable keySource).value = .ok [keyFix] ∧
      TextEdit.applyAll keySource [keyFix.edit] =
        .ok "const x: \x7b any: number \x7d = \x7b any: 1 \x7d;" ∧
      (scan "const x: \x7b any: number \x7d = \x7b any: 1 \x7d;").length ≠
        (scan keySource).length - 1 := by
  refine ⟨?_, ?_, ?_⟩
  · decide +kernel
  · decide +kernel
  · decide

end Engine

end ShapeTypes
