import ShapeTypes.Proofs.Inference.Outlines
import ShapeTypes.Proofs.QuickFix.Edits
import ShapeTypes.Proofs.Store.Annotations

/-
  The quick fixes of annotations.

  Every annotation that is a placeholder gets one fix, with
  the type of the node that it describes.

  Key definitions include:
    * `ShapeTypes.Store.Describes`

  Key theorems include:
    * `ShapeTypes.Store.describes_iff`
    * `ShapeTypes.Concrete.Label.toRange_of_text`
    * `ShapeTypes.Engine.quickFixes_ascription`
-/

------------------------------------------------------------
-- What an Annotation Describes
------------------------------------------------------------

namespace ShapeTypes

namespace Store

variable {store : Store} {type : Node}

/-
  What an annotation describes by its parent: the declarator
  whose type it is, the operand of `as`, or the expression
  that an arrow function with this return type gives.
-/
inductive Describes
    (store : Store)
    (type : Node) :
    NodeId → Prop where
  | declarator {owner : Node} {name : NodeId} {init : Option NodeId}
      (hOwner : type.parent.bind store.find? = some owner)
      (hKind : owner.kind = .variableDeclarator name (some type.id) init) :
      Describes store type owner.id
  | operand {owner : Node} {expression : NodeId}
      (hOwner : type.parent.bind store.find? = some owner)
      (hKind : owner.kind = .asExpression expression type.id) :
      Describes store type expression
  | result {owner : Node} {params : List NodeId} {body : NodeId}
      (hOwner : type.parent.bind store.find? = some owner)
      (hKind :
        owner.kind =
          .arrowFunction params (.expression body) (some type.id)) :
      Describes store type body

/- The described node is found through the parent. -/
theorem describes_iff
    {described : NodeId} :
    store.Describes type described ↔
      ∃ owner, type.parent.bind store.find? = some owner ∧
        annotated? type.id owner = some described := by
  constructor
  · rintro (⟨hOwner, hKind⟩ | ⟨hOwner, hKind⟩ | ⟨hOwner, hKind⟩) <;>
      exact ⟨_, hOwner, by simp [annotated?, hKind]⟩
  · rintro ⟨owner, hOwner, hAnnotated⟩
    unfold annotated? at hAnnotated
    split at hAnnotated
    · rename_i hKind
      rcases Option.ite_none_right_eq_some.1 hAnnotated with ⟨rfl, hHere⟩
      cases hHere
      exact .declarator hOwner hKind
    · rename_i hKind
      rcases Option.ite_none_right_eq_some.1 hAnnotated with ⟨rfl, hHere⟩
      cases hHere
      exact .operand hOwner hKind
    · rename_i hKind
      rcases Option.ite_none_right_eq_some.1 hAnnotated with ⟨rfl, hHere⟩
      cases hHere
      exact .result hOwner hKind
    · simp at hAnnotated

/- What the annotation at a site describes. -/
theorem Represents.describes_iff
    {top owner part : Site}
    {place : Nat}
    {described : NodeId}
    (hRep : store.Represents top)
    (hOwner : top.Below owner)
    (hLists : owner.outline.ListsParts)
    (hPart : owner.parts[place]? = some part) :
    store.Describes (part.node (some owner.id)) described ↔
      (owner.described? place).map Site.id = some described := by
  rcases hRep.find hOwner with ⟨parent, hFind⟩
  have hAnnotated := annotated?_node parent hLists hPart
  have hParent :
      (part.node (some owner.id)).parent.bind store.find? =
        some (owner.node parent) :=
    hFind
  rw [Store.describes_iff, hParent, ← hAnnotated]
  simp [Site.node]

end Store

end ShapeTypes

------------------------------------------------------------
-- Spans of Placeholders
------------------------------------------------------------

namespace ShapeTypes

open Text (byteLength)

theorem Placeholder.rangeAfter_proper
    (before : List Char) :
    (rangeAfter before).start < (rangeAfter before).stop := by
  rw [rangeAfter_eq, Position.lt_iff]
  simp [rangeAt]

namespace Concrete

open Placeholder (rangeAfter rangeAfter_proper)

namespace Label

variable {source before rest : List Char} {label : Label}

/- The bytes of a node that reads as the placeholder. -/
theorem splitAt?_of_text
    (hText : label.text source = Placeholder.word)
    (hSource : source = before ++ (Placeholder.word.toList ++ rest))
    (hOffset : byteLength before = label.location.offsetStart) :
    Text.splitAt? label.location.offsetStart source =
        some (before, Placeholder.word.toList ++ rest) ∧
      Text.splitAt? label.location.offsetEnd source =
        some (before ++ Placeholder.word.toList, rest) := by
  have hStart :
      Text.splitAt? label.location.offsetStart source =
        some (before, Placeholder.word.toList ++ rest) :=
    Text.splitAt?_eq_some_iff.2 ⟨hSource, hOffset⟩
  refine ⟨hStart, Text.splitAt?_eq_some_iff.2 ⟨by simp [hSource], ?_⟩⟩
  have hLength :
      label.location.offsetStart ≤ label.location.offsetEnd ∧
        byteLength Placeholder.word.toList =
          label.location.offsetEnd - label.location.offsetStart := by
    unfold text Text.slice? at hText
    split at hText
    · rename_i cs hSlice
      split at hSlice
      · rename_i hOrder
        rw [hStart] at hSlice
        rcases Option.map_eq_some_iff.1 hSlice with ⟨⟨part, more⟩, hPart, rfl⟩
        have hWord : part = Placeholder.word.toList := by
          rw [← hText]
          simp
        rw [← hWord]
        exact ⟨hOrder, (Text.splitAt?_eq_some_iff.1 hPart).2⟩
      · simp at hSlice
    · simp [Placeholder.word] at hText
  rw [Text.byteLength_append, hOffset, hLength.2]
  omega

/- The span of a node that reads as the placeholder. -/
theorem toRange_of_text
    (hText : label.text source = Placeholder.word)
    (hStart :
      IsAt source label.location.offsetStart label.location.start)
    (hStop : IsAt source label.location.offsetEnd label.location.stop)
    (hSource : source = before ++ (Placeholder.word.toList ++ rest))
    (hOffset : byteLength before = label.location.offsetStart) :
    label.location.toRange = rangeAfter before ∧
      (rangeAfter before).Within label.location := by
  rcases splitAt?_of_text hText hSource hOffset with ⟨hFirst, hLast⟩
  have hBegin : label.location.start = (rangeAfter before).toSpan.1 :=
    hStart _ hFirst
  have hEnd : label.location.stop = (rangeAfter before).toSpan.2 :=
    hStop _ hLast
  have hLt := SourceRange.Within.toSpan_lt (rangeAfter_proper before)
  constructor
  · simp only [Location.start, Location.stop, SourceRange.toSpan,
      Position.mk.injEq] at hBegin hEnd
    simp [Location.toRange, hBegin, hEnd]
  · exact ⟨le_of_eq hBegin, le_of_eq hEnd.symm, le_of_lt hLt⟩

end Label

end Concrete

end ShapeTypes

------------------------------------------------------------
-- Fixes of Annotations
------------------------------------------------------------

namespace ShapeTypes

open Concrete (Tree)
open Text (byteLength)

namespace Engine

/- The place of an annotation in the linked store. -/
theorem exists_owner
    {store : Store}
    {top : Site}
    {id : NodeId}
    {node : Node}
    {text : String}
    (hRep : store.Represents top)
    (hLists : top.outline.Forall Outline.ListsParts)
    (hTop : top.outline.kind ≠ .ascription text)
    (hNode : store.link.value.find? id = some node)
    (hKind : node.kind = .ascription text) :
    ∃ (owner : Site) (place : Nat) (part : Site),
      top.Below owner ∧
        owner.parts[place]? = some part ∧
        part.outline.kind = .ascription text ∧
        node = part.node (some owner.id) := by
  rcases hRep.link.exists_site hNode with ⟨part, hBelow, rfl, hPartNode⟩
  have hPartKind : part.outline.kind = .ascription text := by
    rw [hPartNode] at hKind
    exact Kind.map_eq_ascription_iff.1 hKind
  cases hBelow with
  | refl => exact absurd hPartKind hTop
  | @part owner _ hOwner hPart =>
      rcases List.getElem?_of_mem hPart with ⟨place, hPlace⟩
      rw [hRep.find?_link hLists hOwner hPart, Option.some.injEq] at hNode
      exact ⟨owner, place, part, hOwner, hPlace, hPartKind, hNode.symm⟩

/- Of the fixes for different ranges, one has a given range. -/
theorem filter_range_eq_singleton
    {fixAt : SourceRange → Option QuickFix}
    {ranges : List SourceRange}
    {range : SourceRange}
    {fix : QuickFix}
    (hFix : ∀ range fix, fixAt range = some fix → fix.edit.range = range)
    (hNodup : ranges.Nodup)
    (hMem : range ∈ ranges)
    (hAt : fixAt range = some fix) :
    (ranges.filterMap fixAt).filter (·.edit.range = range) = [fix] := by
  induction ranges with
  | nil => simp at hMem
  | cons first ranges ih =>
      rw [List.nodup_cons] at hNodup
      rcases List.mem_cons.1 hMem with rfl | hMem
      · have hNone :
            (ranges.filterMap fixAt).filter (·.edit.range = range) = [] := by
          rw [List.filter_eq_nil_iff]
          intro other hOther hSame
          rcases List.mem_filterMap.1 hOther with ⟨at', hAt', hOtherFix⟩
          rw [← of_decide_eq_true hSame, hFix _ _ hOtherFix] at hNodup
          exact hNodup.1 hAt'
        rw [List.filterMap_cons_some hAt, List.filter_cons_of_pos, hNone]
        exact decide_eq_true (hFix _ _ hAt)
      · have hTail := ih hNodup.2 hMem
        cases hFirst : fixAt first with
        | none => rwa [List.filterMap_cons_none hFirst]
        | some other =>
            rw [List.filterMap_cons_some hFirst, List.filter_cons_of_neg,
              hTail]
            intro hSame
            rw [← hFix _ _ hFirst, of_decide_eq_true hSame] at hNodup
            exact hNodup.1 hMem

/-
  The search for a range in an annotation finds the
  annotation or a copy of it that describes the same.
-/
theorem exists_located
    {store : Store}
    {top owner part : Site}
    {place : Nat}
    {range : SourceRange}
    {text : String}
    (hRep : store.Represents top)
    (hLists : top.outline.Forall Outline.ListsParts)
    (hSpanned : top.outline.Spanned)
    (hSize : store.size ≤ Store.defaultBudget)
    (hOwner : top.Below owner)
    (hPart : owner.parts[place]? = some part)
    (hKind : part.outline.kind = .ascription text)
    (hProper : range.start < range.stop)
    (hWithin : range.Within part.location) :
    ∃ owner' place' found,
      top.Below owner' ∧
        owner'.parts[place']? = some found ∧
        found.outline = part.outline ∧
        owner'.outline.described? place' =
          owner.outline.described? place ∧
        (store.link.value.locate range top.id).value = some found.id := by
  have hAnnotates :
      Outline.Annotates part.outline (owner.outline.described? place)
        top.outline :=
    hOwner.annotates (.part (Site.parts_getElem?_outline hPart) rfl)
  rcases hRep.link.exists_ascription hProper hKind hWithin .refl hLists
      hSpanned hAnnotates with
    ⟨owner', place', found, hOwner', hFound, hLeads, hOutline, hDescribed⟩
  have hLocate :=
    hRep.link.locate_eq_some hLists (by rwa [Store.size_link])
      (hAnnotates.within hSpanned hWithin) hLeads
  exact ⟨owner', place', found, hOwner', hFound, hOutline, hDescribed,
    hLocate⟩

/- The fix for a placeholder that is an annotation. -/
theorem fixFor_ascription
    (engine : Engine)
    {store : Store}
    {top owner part : Site}
    {place : Nat}
    {range : SourceRange}
    (hRep : store.Represents top)
    (hLists : top.outline.Forall Outline.ListsParts)
    (hSpanned : top.outline.Spanned)
    (hSize : store.size ≤ Store.defaultBudget)
    (hOwner : top.Below owner)
    (hPart : owner.parts[place]? = some part)
    (hKind : part.outline.kind = .ascription Placeholder.word)
    (hProper : range.start < range.stop)
    (hWithin : range.Within part.location) :
    (engine.fixFor store.link.value top.id range).value =
      some (.ofType range
        (((owner.described? place).map fun described =>
          engine.infer store.link.value described.id).getD .unknown)) := by
  have hLinked := hRep.link
  rcases exists_located hRep hLists hSpanned hSize hOwner hPart hKind
      hProper hWithin with
    ⟨owner', place', found, hOwner', hFound, hOutline, hDescribed, hLocate⟩
  have hTarget :=
    hRep.target_link hLists hOwner' hFound (by rw [hOutline, hKind])
      (by decide)
  rw [← Site.map_outline_described?, ← Site.map_outline_described?]
    at hDescribed
  rw [value_fixFor, hLocate, Option.bind_some, hTarget]
  cases hThere : owner'.described? place' with
  | none =>
      rw [hThere, Option.map_none, eq_comm, Option.map_eq_none_iff]
        at hDescribed
      rw [hDescribed]
      rfl
  | some copy =>
      rw [hThere, Option.map_some, eq_comm, Option.map_eq_some_iff]
        at hDescribed
      rcases hDescribed with ⟨described, hHere, hSame⟩
      have hRefers := hLists.imp fun _ => Outline.ListsParts.refersToParts
      have hCopy := hOwner'.trans (Site.below_of_described? hThere)
      have hBelow := hOwner.trans (Site.below_of_described? hHere)
      have hType :
          engine.infer store.link.value copy.id =
            engine.infer store.link.value described.id := by
        rw [engine.infer_eq_inferOutline hLinked hCopy
            (hCopy.forall_outline hRefers),
          engine.infer_eq_inferOutline hLinked hBelow
            (hBelow.forall_outline hRefers), hSame]
      rw [hHere]
      exact congrArg (fun type => some (QuickFix.ofType range type)) hType

/- A fix for a placeholder of a parsed source is the only one there. -/
theorem quickFixes_of_fixFor
    {engine : Engine}
    {table : TreeTable}
    {source : String}
    {store : Store}
    {root : NodeId}
    {range : SourceRange}
    {fix : QuickFix}
    (hParsed : (table.parseLinked source).value = .ok store)
    (hRoot : store.root = some root)
    (hRange : range ∈ Placeholder.ranges source)
    (hFix : (engine.fixFor store root range).value = some fix) :
    ∃ fixes,
      (engine.quickFixes table source).value = .ok fixes ∧
        fixes.filter (·.edit.range = range) = [fix] := by
  rw [value_quickFixes, if_neg (List.ne_nil_of_mem hRange), hParsed]
  simp only [hRoot, Option.bind_some]
  refine ⟨_, rfl, filter_range_eq_singleton ?_
    (Placeholder.ranges_nodup source) hRange hFix⟩
  intro r f hAt
  exact range_of_fixFor hAt

/-
  In a nested program that is placed in its source and has no
  more nodes than the search may look at, every annotation
  that is a placeholder as a whole word gets one fix.  The
  fix puts the type of what the annotation describes in its
  place, and `unknown` if it describes nothing.
-/
theorem quickFixes_ascription
    (engine : Engine)
    {table : TreeTable}
    {source : String}
    {tree : Tree}
    {store : Store}
    {id : NodeId}
    {node : Node}
    {before rest : List Char}
    (hTree : table.find? .ts source = some tree)
    (hBuilt : (Store.build source (some tree)).value = .ok store)
    (hNested : tree.Nested)
    (hPlaced : tree.Placed source.toList)
    (hBodies : tree.ArrowsHaveBodies)
    (hSize : store.size ≤ Store.defaultBudget)
    (hNode : store.link.value.find? id = some node)
    (hKind : node.kind = .ascription Placeholder.word)
    (hSource :
      source.toList = before ++ (Placeholder.word.toList ++ rest))
    (hOffset : byteLength before = node.location.offsetStart)
    (hStands : Placeholder.Stands before rest) :
    ∃ fixes fix,
      (engine.quickFixes table source).value = .ok fixes ∧
        fixes.filter (·.edit.range = node.location.toRange) = [fix] ∧
        (∀ described, store.link.value.Describes node described →
          fix.edit.newText =
            (engine.infer store.link.value described).render) ∧
        ((∀ described, ¬ store.link.value.Describes node described) →
          fix.edit.newText = "unknown") := by
  have hParsed := TreeTable.value_parseLinked hTree hBuilt
  rcases Store.build_eq_ok_iff.1 hBuilt with ⟨-, -, rfl⟩
  have hRep := Store.ofProgram_represents source.toList tree
  have hLists := Store.programOutline_listsParts source.toList hBodies
  have hSpanned :=
    Store.programOutline_spanned source.toList hNested hBodies
  rcases exists_owner hRep hLists (fun hTop => nomatch hTop) hNode hKind with
    ⟨owner, place, part, hOwner, hPart, hPartKind, rfl⟩
  have hReads :=
    ((hOwner.part (List.mem_of_getElem? hPart)).forall_outline
      (Store.programOutline_reads hPlaced)).here
  rcases hReads _ hPartKind with ⟨label, hLocation, hText, hStart, hStop⟩
  have hSpan : (part.node (some owner.id)).location = label.location :=
    hLocation
  rw [hSpan] at hOffset ⊢
  rcases Concrete.Label.toRange_of_text hText.symm hStart hStop hSource
      hOffset with
    ⟨hRange, hWithin⟩
  have hFix := engine.fixFor_ascription hRep hLists hSpanned hSize hOwner
    hPart hPartKind (Placeholder.rangeAfter_proper before)
    (by rwa [Site.location, hLocation])
  rcases quickFixes_of_fixFor hParsed hRep.link.root
      (Placeholder.rangeAfter_mem_ranges hSource hStands) hFix with
    ⟨fixes, hFixes, hOnly⟩
  have hDescribes :
      ∀ described,
        (Store.ofProgram source.toList tree).link.value.Describes
            (part.node (some owner.id)) described ↔
          (owner.described? place).map Site.id = some described :=
    fun _ =>
      hRep.link.describes_iff hOwner (hOwner.forall_outline hLists).here
        hPart
  refine ⟨fixes, _, hFixes, by rwa [hRange], ?_, ?_⟩
  · intro described hHere
    rcases Option.map_eq_some_iff.1 ((hDescribes described).1 hHere) with
      ⟨site, hSite, rfl⟩
    rw [hSite]
    rfl
  · intro hNone
    cases hSite : owner.described? place with
    | none => rfl
    | some site =>
        exact absurd ((hDescribes site.id).2 (by rw [hSite]; rfl))
          (hNone site.id)

/-
  Node 7 of the sample is the second copy of an annotation in
  the name of a method.  It describes node 6, a number.
-/
theorem quickFixes_ascription_sample :
    (Store.ofProgram Concrete.Sample.source.toList
        Concrete.Sample.tree).link.value.find? 7 =
      some ⟨7, ⟨21, 24, 1, 21, 1, 24⟩, .ascription "any", some 8⟩ ∧
    ∃ fixes fix,
      (({ } : Engine).quickFixes
          [⟨.ts, Concrete.Sample.source, Concrete.Sample.tree⟩]
          Concrete.Sample.source).value = .ok fixes ∧
        fixes.filter (·.edit.range = ⟨⟨0, 21⟩, ⟨0, 24⟩⟩) = [fix] ∧
          fix.edit.newText = "number" := by
  let store :=
    Store.ofProgram Concrete.Sample.source.toList Concrete.Sample.tree
  have hTree :
      TreeTable.find? [⟨.ts, Concrete.Sample.source, Concrete.Sample.tree⟩]
        .ts Concrete.Sample.source = some Concrete.Sample.tree := by
    simp [TreeTable.find?]
  have hNode :
      store.link.value.find? 7 =
        some ⟨7, ⟨21, 24, 1, 21, 1, 24⟩, .ascription "any", some 8⟩ := by
    decide +kernel
  have hOwner :
      store.link.value.find? 8 =
        some ⟨8, ⟨16, 24, 1, 16, 1, 24⟩, .asExpression 6 7, some 9⟩ := by
    decide +kernel
  have hSource :
      Concrete.Sample.source.toList =
        Concrete.Sample.source.toList.take 20 ++
          (Placeholder.word.toList ++
            Concrete.Sample.source.toList.drop 23) := by
    decide +kernel
  have hType : (({ } : Engine).infer store.link.value 6).render = "number" := by
    decide +kernel
  rcases quickFixes_ascription { } hTree
      (Store.build_eq_ok_iff.2 ⟨by decide +kernel, by decide +kernel, rfl⟩)
      (by decide +kernel) (by decide +kernel) (by decide +kernel)
      (by decide +kernel) hNode rfl hSource (by decide +kernel)
      (by decide +kernel) with
    ⟨fixes, fix, hFixes, hOnly, hText, -⟩
  exact ⟨hNode, fixes, fix, hFixes, hOnly,
    (hText 6 (.operand hOwner rfl)).trans hType⟩

end Engine

end ShapeTypes
