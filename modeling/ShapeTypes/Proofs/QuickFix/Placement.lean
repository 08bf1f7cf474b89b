import ShapeTypes.Proofs.QuickFix.Annotations

/-
  The placeholders that get a fix.

  A placeholder gets a fix just if an annotation contains
  it.  The annotation need not be the placeholder itself:
  types are kept as leaves, so comments and strings inside a
  type are parts of the annotation, and the placeholders in
  them are replaced by `unknown`.

  Key definitions include:
    * `ShapeTypes.Store.AnnotationAt`

  Key theorems include:
    * `ShapeTypes.Store.covers_of_locate`
    * `ShapeTypes.Engine.annotationAt_of_fixFor`
    * `ShapeTypes.Engine.exists_fixFor_of_annotationAt`
    * `ShapeTypes.Engine.quickFixes_annotationAt`
-/

------------------------------------------------------------
-- What Is Found
------------------------------------------------------------

namespace ShapeTypes

namespace Store

variable {store : Store} {range : SourceRange}

/- What is found in any store contains the range. -/
theorem covers_of_locate
    {start found : NodeId}
    (hFound : (store.locate range start).value = some found) :
    store.Covers range found := by
  rw [value_locate] at hFound
  rcases admitted_of_found hFound with ⟨hBudget, hNew, hCovers⟩
  exact (Searched.search hBudget hNew hCovers).covers found
    (List.mem_of_head? hFound)

/- A stored annotation that contains a range, with its text. -/
structure AnnotationAt
    (store : Store)
    (range : SourceRange)
    (node : Node)
    (text : String) : Prop where
  stored : store.find? node.id = some node
  kind : node.kind = .ascription text
  within : range.Within node.location

/- The target at a stored node that is an annotation. -/
theorem exists_target_eq
    {id : NodeId}
    {node : Node}
    {text : String}
    (hNode : store.find? id = some node)
    (hKind : node.kind = .ascription text) :
    ∃ described,
      (store.target id).value = .ascription described ∧
        (Text.trim text ≠ Placeholder.word → described = none) := by
  unfold target
  simp only [hNode, hKind]
  by_cases hText : Text.trim text = Placeholder.word
  · rw [if_pos hText]
    unfold placeholderTarget
    split
    · exact ⟨none, rfl, fun hNot => absurd hText hNot⟩
    · split
      · exact ⟨_, rfl, fun hNot => absurd hText hNot⟩
      · exact ⟨none, rfl, fun hNot => absurd hText hNot⟩
  · rw [if_neg hText]
    exact ⟨none, rfl, fun _ => rfl⟩

/- Only annotations have annotations as targets. -/
theorem exists_text_of_target
    {id : NodeId}
    {node : Node}
    {described : Option NodeId}
    (hNode : store.find? id = some node)
    (hTarget : (store.target id).value = .ascription described) :
    ∃ text, node.kind = .ascription text := by
  unfold target at hTarget
  simp only [hNode] at hTarget
  split at hTarget
  · exact ⟨_, by assumption⟩
  · simp at hTarget

end Store

end ShapeTypes

------------------------------------------------------------
-- The Placeholders With a Fix
------------------------------------------------------------

namespace ShapeTypes

open Concrete (Tree)

theorem Placeholder.proper
    {source : String}
    {range : SourceRange}
    (hRange : range ∈ ranges source) :
    range.start < range.stop := by
  rw [ranges_eq] at hRange
  rcases List.mem_map.1 hRange with ⟨before, -, rfl⟩
  exact rangeAfter_proper before

namespace Engine

variable {engine : Engine} {range : SourceRange} {fix : QuickFix}

/-
  A fix is found at an annotation of a store that holds its
  nodes under their own ids.  It is `unknown` if the
  annotation is more than the placeholder.
-/
theorem annotationAt_of_fixFor
    {store : Store}
    {top : Site}
    {root : NodeId}
    (hRep : store.Represents top)
    (hFix : (engine.fixFor store root range).value = some fix) :
    ∃ node text,
      store.AnnotationAt range node text ∧
        (Text.trim text ≠ Placeholder.word →
          fix.edit.newText = "unknown") := by
  rw [value_fixFor, Option.bind_eq_some_iff] at hFix
  rcases hFix with ⟨located, hLocated, hFix⟩
  have hCovers := Store.covers_of_locate hLocated
  unfold Store.Covers at hCovers
  split at hCovers
  · rename_i node hNode
    split at hFix
    · simp at hFix
    · rename_i described hTarget
      rcases Store.exists_text_of_target hNode hTarget with ⟨text, hKind⟩
      rcases Store.exists_target_eq hNode hKind with
        ⟨same, hSame, hOther⟩
      have hId : node.id = located := by
        rcases hRep.exists_site hNode with ⟨site, -, rfl, hSite⟩
        rw [hSite]
        rfl
      refine ⟨node, text, ⟨by rw [hId]; exact hNode, hKind, hCovers⟩, ?_⟩
      intro hText
      rw [hTarget, Target.ascription.injEq] at hSame
      rw [hSame, hOther hText] at hFix
      cases hFix
      rfl
  · exact hCovers.elim

/- A placeholder in an annotation gets a fix. -/
theorem exists_fixFor_of_annotationAt
    (engine : Engine)
    {store : Store}
    {top : Site}
    {node : Node}
    {text : String}
    (hRep : store.Represents top)
    (hLists : top.outline.Forall Outline.ListsParts)
    (hSpanned : top.outline.Spanned)
    (hTop : top.outline.kind ≠ .ascription text)
    (hSize : store.size ≤ Store.defaultBudget)
    (hProper : range.start < range.stop)
    (hAt : store.link.value.AnnotationAt range node text) :
    ∃ fix, (engine.fixFor store.link.value top.id range).value = some fix := by
  rcases exists_owner hRep hLists hTop hAt.stored hAt.kind with
    ⟨owner, place, part, hOwner, hPart, hKind, hNode⟩
  have hWithin : range.Within part.outline.location := by
    have hHere := hAt.within
    rw [hNode] at hHere
    exact hHere
  rcases exists_located hRep hLists hSpanned hSize hOwner hPart hKind
      hProper hWithin with
    ⟨owner', place', found, hOwner', hFound, hOutline, -, hLocate⟩
  have hFind :=
    hRep.find?_link hLists hOwner' (List.mem_of_getElem? hFound)
  have hFoundKind :
      (found.node (some owner'.id)).kind = .ascription text := by
    simp [Site.node, Site.kind, hOutline, hKind, Kind.map]
  rcases Store.exists_target_eq hFind hFoundKind with
    ⟨described, hTarget, -⟩
  rw [value_fixFor, hLocate, Option.bind_some, hTarget]
  exact ⟨_, rfl⟩

/- The fixes of a parsed source are those for its placeholders. -/
theorem mem_quickFixes_iff
    {table : TreeTable}
    {source : String}
    {store : Store}
    {root : NodeId}
    {fixes : List QuickFix}
    (hParsed : (table.parseLinked source).value = .ok store)
    (hRoot : store.root = some root)
    (hFixes : (engine.quickFixes table source).value = .ok fixes) :
    fix ∈ fixes ↔
      ∃ range ∈ Placeholder.ranges source,
        (engine.fixFor store root range).value = some fix := by
  rw [value_quickFixes] at hFixes
  split at hFixes
  · rename_i hNone
    cases hFixes
    simp [hNone]
  · rw [hParsed] at hFixes
    simp only [hRoot, Option.bind_some, Except.ok.injEq] at hFixes
    rw [← hFixes, List.mem_filterMap]

/-
  A placeholder with a fix stands in an annotation, which is
  replaced by `unknown` if it is more than the placeholder.
  In a nested program that has no more nodes than the search
  may look at, every placeholder in an annotation has a fix,
  whatever else is around it.
-/
theorem quickFixes_annotationAt
    (engine : Engine)
    {table : TreeTable}
    {source : String}
    {tree : Tree}
    {store : Store}
    {fixes : List QuickFix}
    {range : SourceRange}
    (hTree : table.find? .ts source = some tree)
    (hBuilt : (Store.build source (some tree)).value = .ok store)
    (hFixes : (engine.quickFixes table source).value = .ok fixes)
    (hRange : range ∈ Placeholder.ranges source) :
    (∀ fix ∈ fixes, fix.edit.range = range →
        ∃ node text,
          store.link.value.AnnotationAt range node text ∧
            (Text.trim text ≠ Placeholder.word →
              fix.edit.newText = "unknown")) ∧
      (tree.Nested → tree.ArrowsHaveBodies →
        store.size ≤ Store.defaultBudget →
          (∃ node text, store.link.value.AnnotationAt range node text) →
            ∃ fix ∈ fixes, fix.edit.range = range) := by
  have hParsed := TreeTable.value_parseLinked hTree hBuilt
  rcases Store.build_eq_ok_iff.1 hBuilt with ⟨-, -, rfl⟩
  have hRep := Store.ofProgram_represents source.toList tree
  have hMem (fix : QuickFix) : fix ∈ fixes ↔ _ :=
    mem_quickFixes_iff hParsed hRep.link.root hFixes
  refine ⟨?_, ?_⟩
  · intro fix hFix hHere
    rcases (hMem fix).1 hFix with ⟨at', -, hAt⟩
    have hSame : at' = range := by
      rw [← hHere, range_of_fixFor hAt]
    rw [hSame] at hAt
    exact annotationAt_of_fixFor hRep.link hAt
  · rintro hNested hBodies hSize ⟨node, text, hAt⟩
    rcases exists_fixFor_of_annotationAt engine hRep
        (Store.programOutline_listsParts source.toList hBodies)
        (Store.programOutline_spanned source.toList hNested hBodies)
        (fun hTop => nomatch hTop) hSize (Placeholder.proper hRange)
        hAt with
      ⟨fix, hFix⟩
    exact ⟨fix, (hMem fix).2 ⟨range, hRange, hFix⟩, range_of_fixFor hFix⟩

end Engine

------------------------------------------------------------
-- Strings in Types
------------------------------------------------------------

namespace Concrete.Sample

/- A declaration whose type and value are the same string. -/
def stringSource : String :=
  "const x: 'any' = 'any';"

/- A string that holds the placeholder. -/
def string
    (field : Option String)
    (start stop : Nat) :
    Tree :=
  named "string" field start stop
    [token "'" start (start + 1),
      named "string_fragment" none (start + 1) (stop - 1) [],
      token "'" (stop - 1) stop]

/- The tree of the declaration. -/
def stringTyped : Tree :=
  named "program" none 0 23
    [named "lexical_declaration" none 0 23
      [node false "const" (some "kind") 0 5 [],
        named "variable_declarator" none 6 22
          [named "identifier" (some "name") 6 7 [],
            named "type_annotation" (some "type") 7 14
              [token ":" 7 8,
                named "literal_type" none 9 14 [string none 9 14]],
            token "=" 15 16,
            string (some "value") 17 22],
        token ";" 22 23]]

end Concrete.Sample

namespace Engine

open Concrete.Sample (stringSource stringTyped)

/-
  Of the two placeholders, both in a string, the one in the
  type gets a fix.
-/
theorem quickFixes_string :
    Placeholder.ranges stringSource =
        [⟨⟨0, 10⟩, ⟨0, 13⟩⟩, ⟨⟨0, 18⟩, ⟨0, 21⟩⟩] ∧
      (∀ range ∈ Placeholder.ranges stringSource,
        ∃ node ∈ stringTyped.subtrees,
          node.label.kind = "string" ∧
            range.Within node.label.location) ∧
      (({ } : Engine).quickFixes [⟨.ts, stringSource, stringTyped⟩]
          stringSource).value =
        .ok [.ofType ⟨⟨0, 10⟩, ⟨0, 13⟩⟩ .unknown] := by
  decide +kernel

/- The string in the type is an annotation, so its placeholder has a fix. -/
theorem quickFixes_annotationAt_string :
    ∃ fixes fix node,
      (({ } : Engine).quickFixes [⟨.ts, stringSource, stringTyped⟩]
          stringSource).value = .ok fixes ∧
        fix ∈ fixes ∧
        fix.edit.range = ⟨⟨0, 10⟩, ⟨0, 13⟩⟩ ∧
        (Store.ofProgram stringSource.toList
            stringTyped).link.value.AnnotationAt
          fix.edit.range node "'any'" := by
  have hAt :
      (Store.ofProgram stringSource.toList
          stringTyped).link.value.AnnotationAt ⟨⟨0, 10⟩, ⟨0, 13⟩⟩
        ⟨2, ⟨9, 14, 1, 9, 1, 14⟩, .ascription "'any'", some 4⟩ "'any'" :=
    ⟨by decide +kernel, rfl, by decide +kernel⟩
  have hFixes :
      (({ } : Engine).quickFixes [⟨.ts, stringSource, stringTyped⟩]
          stringSource).value =
        .ok [.ofType ⟨⟨0, 10⟩, ⟨0, 13⟩⟩ .unknown] := by
    decide +kernel
  have hTree :
      TreeTable.find? [⟨.ts, stringSource, stringTyped⟩] .ts stringSource =
        some stringTyped := by
    simp [TreeTable.find?]
  rcases (quickFixes_annotationAt { } hTree
      (Store.build_eq_ok_iff.2 ⟨by decide +kernel, by decide +kernel, rfl⟩) hFixes
      (by decide +kernel)).2 (by decide +kernel) (by decide +kernel)
      (by decide +kernel) ⟨_, _, hAt⟩ with
    ⟨fix, hFix, hRange⟩
  exact ⟨_, fix, _, hFixes, hFix, hRange, by rw [hRange]; exact hAt⟩

end Engine

end ShapeTypes
