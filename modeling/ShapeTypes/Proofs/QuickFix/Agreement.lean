import ShapeTypes.Proofs.QuickFix.Placement

/-
  Fixes against inference at a selection.

  Fixes are made in one pass over a parsed source, and the
  type at a selection is found by parsing anew.  A fix writes
  the type at its own range.  A placeholder without a fix
  selects a node that is inferred as it is, or nothing.

  Key theorems include:
    * `ShapeTypes.Engine.value_inferIn`
    * `ShapeTypes.Engine.fixFor_eq_some_iff`
    * `ShapeTypes.Engine.eq_ofType_of_mem_quickFixes`
    * `ShapeTypes.Engine.quickFixes_agree_inferAt`
-/

------------------------------------------------------------
-- Parsed Sources
------------------------------------------------------------

namespace ShapeTypes

namespace TreeTable

theorem exists_root
    {table : TreeTable}
    {source : String}
    {store : Store}
    (hParsed : (table.parseLinked source).value = .ok store) :
    ∃ root, store.root = some root := by
  unfold parseLinked parse at hParsed
  cases hTree : table.find? .ts source with
  | none => simp [hTree] at hParsed
  | some tree =>
      cases hBuilt : (Store.build source (some tree)).value with
      | error refusal => simp [hTree, hBuilt] at hParsed
      | ok built =>
          have hLinked : store = built.link.value := by
            simpa [hTree, hBuilt, eq_comm] using hParsed
          rcases Store.build_eq_ok_iff.1 hBuilt with ⟨-, -, rfl⟩
          rw [hLinked]
          exact ⟨_,
            (Store.ofProgram_represents source.toList tree).link.root⟩

end TreeTable

end ShapeTypes

------------------------------------------------------------
-- The Type at a Selection
------------------------------------------------------------

namespace ShapeTypes

namespace Engine

variable {engine : Engine} {store : Store} {root : NodeId}
variable {range : SourceRange}

/- The type at a selection, whatever is reported on the way. -/
theorem value_inferIn
    (hRoot : store.root = some root) :
    (engine.inferIn store range).value =
      match (store.locate range root).value with
      | none => .unknown
      | some located =>
          (engine.inferTarget store
            (store.target located).value.node?).value := by
  unfold inferIn
  simp only [hRoot, Reported.value_bind]
  cases (store.locate range root).value with
  | none => rfl
  | some located => rfl

/- The type at a selection of a source that parses. -/
theorem value_inferAt
    {table : TreeTable}
    {source : String}
    (hParsed : (table.parseLinked source).value = .ok store) :
    (engine.inferAt table source range).value =
      (engine.inferIn store range).value := by
  simp [inferAt, tryInferAt, hParsed]

/- A fix writes the type at its range, if an annotation is there. -/
theorem fixFor_eq_some_iff
    {fix : QuickFix}
    (hRoot : store.root = some root) :
    (engine.fixFor store root range).value = some fix ↔
      (∃ located described,
        (store.locate range root).value = some located ∧
          (store.target located).value = .ascription described) ∧
        fix = .ofType range (engine.inferIn store range).value := by
  rw [value_fixFor, value_inferIn hRoot]
  cases (store.locate range root).value with
  | none => simp
  | some located =>
      cases hTarget : (store.target located).value with
      | expression id => simp [hTarget]
      | ascription described => simp [hTarget, Target.node?, eq_comm]

/- A placeholder without a fix selects nothing, or an expression. -/
theorem fixFor_eq_none
    (hNone : (engine.fixFor store root range).value = none) :
    (store.locate range root).value = none ∨
      ∃ located node,
        (store.locate range root).value = some located ∧
          store.find? located = some node ∧
          (∀ text, node.kind ≠ .ascription text) ∧
          (store.target located).value = .expression located := by
  rw [value_fixFor] at hNone
  cases hLocated : (store.locate range root).value with
  | none => exact Or.inl rfl
  | some located =>
      right
      have hCovers := Store.covers_of_locate hLocated
      unfold Store.Covers at hCovers
      split at hCovers
      · rename_i node hNode
        have hKind : ∀ text, node.kind ≠ .ascription text := by
          intro text hText
          rcases Store.exists_target_eq hNode hText with
            ⟨described, hTarget, -⟩
          simp [hLocated, hTarget] at hNone
        refine ⟨located, node, rfl, hNode, hKind, ?_⟩
        unfold Store.target
        simp only [hNode]
        rfl
      · exact hCovers.elim

end Engine

end ShapeTypes

------------------------------------------------------------
-- Agreement
------------------------------------------------------------

namespace ShapeTypes

open Concrete (Tree)

namespace Engine

variable {engine : Engine} {table : TreeTable} {source : String}

/- The fixes of a source that parses are those of its placeholders. -/
theorem exists_quickFixes
    {store : Store}
    (engine : Engine)
    (hParsed : (table.parseLinked source).value = .ok store) :
    ∃ fixes, (engine.quickFixes table source).value = .ok fixes := by
  rw [value_quickFixes]
  split
  · exact ⟨[], rfl⟩
  · rw [hParsed]
    exact ⟨_, rfl⟩

/- A source with a fix parses. -/
theorem exists_parsed
    {fixes : List QuickFix}
    {fix : QuickFix}
    (hFixes : (engine.quickFixes table source).value = .ok fixes)
    (hFix : fix ∈ fixes) :
    ∃ store, (table.parseLinked source).value = .ok store := by
  rw [value_quickFixes] at hFixes
  split at hFixes
  · cases hFixes
    simp at hFix
  · cases hParsed : (table.parseLinked source).value with
    | error refusal => simp [hParsed] at hFixes
    | ok store => exact ⟨store, rfl⟩

/- A fix is for a placeholder, and writes the type that is found there. -/
theorem eq_ofType_of_mem_quickFixes
    {fixes : List QuickFix}
    {fix : QuickFix}
    (hFixes : (engine.quickFixes table source).value = .ok fixes)
    (hFix : fix ∈ fixes) :
    fix =
      .ofType fix.edit.range
        (engine.inferAt table source fix.edit.range).value := by
  rcases exists_parsed hFixes hFix with ⟨store, hParsed⟩
  rcases TreeTable.exists_root hParsed with ⟨root, hRoot⟩
  rcases (mem_quickFixes_iff hParsed hRoot hFixes).1 hFix with
    ⟨range, -, hAt⟩
  rw [range_of_fixFor hAt, value_inferAt hParsed]
  exact ((fixFor_eq_some_iff hRoot).1 hAt).2

/-
  A fix replaces the range that it is about by the type found
  there.  In a source that parses, a placeholder without a fix
  selects nothing, or a node that is no annotation and whose
  own type is found there.
-/
theorem quickFixes_agree_inferAt
    (engine : Engine)
    (table : TreeTable)
    (source : String) :
    (∀ fixes,
      (engine.quickFixes table source).value = .ok fixes →
        ∀ fix ∈ fixes,
          fix.edit.range = fix.diagnostic.range ∧
            fix.edit.newText =
              (engine.inferAt table source
                fix.diagnostic.range).value.render) ∧
      ∀ store,
        (table.parseLinked source).value = .ok store →
          ∃ root fixes,
            store.root = some root ∧
              (engine.quickFixes table source).value = .ok fixes ∧
              ∀ diagnostic ∈ Placeholder.scan source,
                (∀ fix ∈ fixes, fix.diagnostic ≠ diagnostic) →
                  (store.locate diagnostic.range root).value = none ∨
                    ∃ located node,
                      (store.locate diagnostic.range root).value =
                          some located ∧
                        store.find? located = some node ∧
                        (∀ text, node.kind ≠ .ascription text) ∧
                        (engine.inferAt table source
                            diagnostic.range).value =
                          engine.infer store located := by
  constructor
  · intro fixes hFixes fix hFix
    rw [eq_ofType_of_mem_quickFixes hFixes hFix]
    exact ⟨rfl, rfl⟩
  · intro store hParsed
    rcases TreeTable.exists_root hParsed with ⟨root, hRoot⟩
    rcases exists_quickFixes engine hParsed with ⟨fixes, hFixes⟩
    refine ⟨root, fixes, hRoot, hFixes, ?_⟩
    intro diagnostic hDiagnostic hUnfixed
    rcases List.mem_map.1 hDiagnostic with ⟨range, hRange, rfl⟩
    have hNone : (engine.fixFor store root range).value = none := by
      rw [Option.eq_none_iff_forall_ne_some]
      intro fix hAt
      have hFix : fix ∈ fixes :=
        (mem_quickFixes_iff hParsed hRoot hFixes).2 ⟨range, hRange, hAt⟩
      apply hUnfixed fix hFix
      rw [((fixFor_eq_some_iff hRoot).1 hAt).2]
      rfl
    rcases fixFor_eq_none hNone with
      hNothing | ⟨located, node, hLocated, hNode, hKind, hTarget⟩
    · exact Or.inl hNothing
    · refine Or.inr ⟨located, node, hLocated, hNode, hKind, ?_⟩
      simp only [Placeholder.diagnostic]
      rw [value_inferAt hParsed, value_inferIn hRoot, hLocated]
      simp [hTarget, Target.node?, inferTarget, infer]

end Engine

------------------------------------------------------------
-- A Key Named Like the Placeholder
------------------------------------------------------------

namespace Concrete.Sample

/- A declaration whose value has the placeholder as a key. -/
def keySource : String :=
  "const x: any = \x7b any: 1 \x7d;"

/- The tree of the declaration. -/
def keyTree : Tree :=
  named "program" none 0 26
    [named "lexical_declaration" none 0 26
      [node false "const" (some "kind") 0 5 [],
        named "variable_declarator" none 6 25
          [named "identifier" (some "name") 6 7 [],
            named "type_annotation" (some "type") 7 12
              [token ":" 7 8, placeholder 9 12],
            token "=" 13 14,
            named "object" (some "value") 15 25
              [token "\x7b" 15 16,
                named "pair" none 17 23
                  [named "property_identifier" (some "key") 17 20 [],
                    token ":" 20 21,
                    named "number" (some "value") 22 23 []],
                token "\x7d" 24 25]],
        token ";" 25 26]]

/- The table with this tree alone. -/
def keyTable : TreeTable :=
  [⟨.ts, keySource, keyTree⟩]

/- The one fix of the declaration. -/
def keyFix : QuickFix :=
  .ofType ⟨⟨0, 9⟩, ⟨0, 12⟩⟩ (.record [("any", .primitive .number)])

end Concrete.Sample

namespace Engine

open Concrete.Sample (keySource keyTree keyTable keyFix)

/-
  The annotation has a fix, with the type found there.  The
  key has none, and the node found there is inferred.
-/
theorem quickFixes_agree_inferAt_key :
    (({ } : Engine).quickFixes keyTable keySource).value = .ok [keyFix] ∧
      keyFix.edit.newText =
        (({ } : Engine).inferAt keyTable keySource
          ⟨⟨0, 9⟩, ⟨0, 12⟩⟩).value.render ∧
      ∃ store located,
        (keyTable.parseLinked keySource).value = .ok store ∧
          (({ } : Engine).inferAt keyTable keySource
              ⟨⟨0, 17⟩, ⟨0, 20⟩⟩).value =
            ({ } : Engine).infer store located := by
  have hFixes :
      (({ } : Engine).quickFixes keyTable keySource).value =
        .ok [keyFix] := by
    decide +kernel
  have hTree : keyTable.find? .ts keySource = some keyTree := by
    simp [TreeTable.find?, keyTable]
  have hParsed :=
    TreeTable.value_parseLinked hTree
      (Store.build_eq_ok_iff.2 ⟨by decide +kernel, by decide +kernel, rfl⟩)
  rcases quickFixes_agree_inferAt { } keyTable keySource with
    ⟨hFixed, hUnfixed⟩
  refine ⟨hFixes, (hFixed _ hFixes keyFix (by simp)).2, ?_⟩
  rcases hUnfixed _ hParsed with ⟨root, fixes, hRoot, hSame, hRest⟩
  have hAll : fixes = [keyFix] := by
    rw [hFixes] at hSame
    cases hSame
    rfl
  have hTop :
      (Store.ofProgram keySource.toList keyTree).link.value.root =
        some 9 := by
    decide +kernel
  rcases hRest (Placeholder.diagnostic ⟨⟨0, 17⟩, ⟨0, 20⟩⟩)
      (by decide +kernel) (by rw [hAll]; decide +kernel) with
    hNothing | ⟨located, -, -, -, -, hType⟩
  · rw [hTop, Option.some.injEq] at hRoot
    rw [← hRoot] at hNothing
    exact absurd hNothing (by decide +kernel)
  · exact ⟨_, located, hParsed, hType⟩

end Engine

end ShapeTypes
