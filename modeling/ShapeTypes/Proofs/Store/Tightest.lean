import ShapeTypes.Proofs.Draft.Outlines
import ShapeTypes.Proofs.Outline.Stored
import ShapeTypes.Proofs.Store.Descent

/-
  The search in the store of a program finds the tightest
  node.

  The search takes the first part that contains a range.  The
  other parts lie apart from it, or, for the name of a
  method, hold the same spans again.  So nothing that is left
  out is tighter than what is found.

  Key definitions include:
    * `ShapeTypes.Outline.Wide`

  Key theorems include:
    * `ShapeTypes.Outline.Spanned.pairwise_echo`
    * `ShapeTypes.Store.Represents.ordered`
    * `ShapeTypes.Store.Represents.exists_tightest`
    * `ShapeTypes.Store.locate_tightest`
-/

------------------------------------------------------------
-- Spans Around a Range
------------------------------------------------------------

namespace ShapeTypes

namespace Outline

variable {range : SourceRange} {outline : Outline} {tight : Location}

theorem Spanned.forall_inside
    (hSpanned : outline.Spanned) :
    outline.Forall (·.location.Inside outline.location) := by
  induction hSpanned with
  | @apart location kind parts hInside _ _ ih =>
      refine .intro (.refl _) fun part hPart => ?_
      exact (ih part hPart).imp fun _ hBelow =>
        hBelow.trans (hInside part hPart)
  | @method location key value computed hKey hValue _ _ _ ihKey ihValue =>
      refine .intro (.refl _) (List.forall_mem_cons.2 ⟨?_, ?_⟩)
      · exact ihKey.imp fun _ hBelow => hBelow.trans hKey
      · rw [List.forall_mem_singleton]
        exact ihValue.imp fun _ hBelow => hBelow.trans hValue

theorem Spanned.parts
    (hSpanned : outline.Spanned) :
    ∀ part ∈ outline.parts, part.Spanned := by
  cases hSpanned with
  | apart _ _ hParts => exact hParts
  | method _ _ _ hKey hValue =>
      exact List.forall_mem_cons.2
        ⟨hKey, (List.forall_mem_singleton).2 hValue⟩

/- Of two parts, the later lies apart from the earlier or echoes it. -/
theorem Spanned.pairwise_echo
    (hSpanned : outline.Spanned) :
    outline.parts.Pairwise Echo := by
  cases hSpanned with
  | apart _ hApart _ => exact hApart.imp fun hBoth => .apart hBoth
  | method _ _ hEcho _ _ => exact List.pairwise_pair.2 hEcho

/- Where it contains the range, a span lies around another one. -/
def Wide
    (range : SourceRange)
    (tight : Location)
    (outline : Outline) : Prop :=
  range.Within outline.location → tight.Inside outline.location

/- No part of an outline without the range contains the range. -/
theorem Spanned.wide_of_not_within
    (hSpanned : outline.Spanned)
    (hNot : ¬ range.Within outline.location) :
    outline.Forall (Wide range tight) :=
  hSpanned.forall_inside.imp fun _ hInside hWithin =>
    absurd (hWithin.of_inside hInside) hNot

/- What echoes a name is as wide as the name. -/
theorem Echo.wide
    {key : Outline}
    (hEcho : Echo key outline)
    (hProper : range.start < range.stop)
    (hSpanned : outline.Spanned)
    (hKey : range.Within key.location)
    (hWide : key.Forall (Wide range tight)) :
    outline.Forall (Wide range tight) := by
  induction hEcho with
  | same => exact hWide
  | apart hApart =>
      refine hSpanned.wide_of_not_within fun hWithin => ?_
      exact SourceRange.Within.not_apart hProper hKey hWithin hApart
  | around hInside _ ih =>
      refine .intro (fun _ => (hWide.here hKey).trans hInside) ?_
      intro part hPart
      exact ih part hPart (hSpanned.parts part hPart)

end Outline

end ShapeTypes

------------------------------------------------------------
-- Descents by Sites
------------------------------------------------------------

namespace ShapeTypes

namespace Store

namespace Represents

variable {store : Store} {top site : Site} {range : SourceRange}

/- In the store of a program, parts come before their owners. -/
theorem ordered
    (hRep : store.Represents top)
    (hLists : top.outline.Forall Outline.ListsParts) :
    store.Ordered := by
  intro id child hChild
  cases hFind : store.find? id with
  | none => simp [Store.childrenOf, hFind] at hChild
  | some node =>
      rcases hRep.below hFind with ⟨site, hBelow, rfl⟩
      have hHere := (hBelow.forall_outline hLists).here
      rcases (hRep.mem_childrenOf_iff hBelow hHere).1 hChild with
        ⟨part, hPart, rfl⟩
      exact ⟨hRep.mem_nodes (hBelow.part hPart),
        (Site.bounds_of_mem_parts hPart).2⟩

/- The descent ends at a site if none of its parts contains the range. -/
theorem leads_self
    (hRep : store.Represents top)
    (hBelow : top.Below site)
    (hLists : site.outline.ListsParts)
    (hNone : ∀ part ∈ site.parts, ¬ range.Within part.location) :
    store.Leads range site.id site.id := by
  refine .stop fun child hChild hCovers => ?_
  rcases (hRep.mem_childrenOf_iff hBelow hLists).1 hChild with
    ⟨part, hPart, rfl⟩
  exact hNone part hPart ((hRep.covers_iff (hBelow.part hPart) range).1 hCovers)

/- The descent goes on at the first part that contains the range. -/
theorem leads_part
    {before after : List Site}
    {part : Site}
    {final : NodeId}
    (hRep : store.Represents top)
    (hBelow : top.Below site)
    (hLists : site.outline.ListsParts)
    (hParts : site.parts = before ++ part :: after)
    (hBefore : ∀ other ∈ before, ¬ range.Within other.location)
    (hWithin : range.Within part.location)
    (hLeads : store.Leads range part.id final) :
    store.Leads range site.id final := by
  have hPlace : site.parts[before.length]? = some part := by
    simp [hParts]
  have hListed : before.length ∈ site.outline.kind.children := by
    rw [hLists.all, ← Site.length_parts, hParts]
    simp
  -- The places in front of the first reference are smaller.
  rcases List.eq_append_cons_of_mem hListed with
    ⟨passed, pending, hPlaces, hFirst⟩
  have hPassed : ∀ place ∈ passed, place < before.length := by
    intro place hMem
    have hOrdered := hLists.ordered
    rw [hPlaces] at hOrdered
    have hLe :=
      (List.pairwise_append.1 hOrdered).2.2 place hMem before.length (by simp)
    refine Nat.lt_of_le_of_ne hLe fun hEq => hFirst ?_
    rw [← hEq]
    exact hMem
  have hChildren :
      store.childrenOf site.id =
        passed.map site.idAt ++ part.id :: pending.map site.idAt := by
    rw [hRep.childrenOf hBelow, hPlaces]
    simp [Site.idAt_eq hPlace]
  refine .step hChildren ?_ ?_ hLeads
  · intro other hOther
    rcases List.mem_map.1 hOther with ⟨place, hMem, rfl⟩
    have hLt := hPassed place hMem
    have hEarlier : site.parts[place]? = some before[place] := by
      rw [hParts, List.getElem?_append_left hLt]
      exact List.getElem?_eq_getElem hLt
    have hSite := hBelow.part (List.mem_of_getElem? hEarlier)
    rw [Site.idAt_eq hEarlier, hRep.covers_iff hSite]
    exact hBefore _ (List.getElem_mem hLt)
  · exact (hRep.covers_iff (hBelow.part (by simp [hParts])) range).2 hWithin

/-
  Either no part of a site contains the range, or there is a
  first one that does.
-/
theorem none_or_first
    (site : Site)
    (range : SourceRange) :
    (∀ part ∈ site.parts, ¬ range.Within part.location) ∨
      ∃ before part after,
        site.parts = before ++ part :: after ∧
          (∀ other ∈ before, ¬ range.Within other.location) ∧
            range.Within part.location := by
  cases hFind :
      site.parts.find? fun part => decide (range.Within part.location) with
  | none =>
      left
      simpa [List.find?_eq_none] using hFind
  | some part =>
      right
      rcases List.find?_eq_some_iff_append.1 hFind with
        ⟨hWithin, before, after, hParts, hBefore⟩
      refine ⟨before, part, after, hParts, ?_, by simpa using hWithin⟩
      intro other hOther
      simpa using hBefore other hOther

/- The descent from a site ends at the tightest node below it. -/
theorem exists_tightest
    (hRep : store.Represents top)
    (hProper : range.start < range.stop)
    (hBelow : top.Below site)
    (hLists : site.outline.Forall Outline.ListsParts)
    (hSpanned : site.outline.Spanned)
    (hWithin : range.Within site.location) :
    ∃ found, site.Below found ∧
      store.Leads range site.id found.id ∧
        range.Within found.location ∧
          site.outline.Forall (Outline.Wide range found.location) := by
  induction site using Site.induct with
  | hSite site ih =>
      have hPartSpanned :
          ∀ part ∈ site.parts, part.outline.Spanned := fun part hPart =>
        hSpanned.parts _ (Site.outline_mem_of_mem_parts hPart)
      rcases none_or_first site range with
        hNone | ⟨before, part, after, hParts, hBefore, hFirst⟩
      · refine ⟨site, .refl, hRep.leads_self hBelow hLists.here hNone,
          hWithin, .intro (fun _ => .refl _) ?_⟩
        rw [← Site.map_outline_parts, List.forall_mem_map]
        intro part hPart
        exact (hPartSpanned part hPart).wide_of_not_within
          (hNone part hPart)
      · have hPart : part ∈ site.parts := by simp [hParts]
        have hOutline := Site.outline_mem_of_mem_parts hPart
        rcases ih part hPart (hBelow.part hPart)
            (hLists.parts _ hOutline) (hPartSpanned part hPart) hFirst with
          ⟨found, hFound, hLeads, hFoundWithin, hWide⟩
        have hInside : part.location.Inside site.location :=
          (hSpanned.forall_inside.parts _ hOutline).here
        refine ⟨found, (Site.Below.refl.part hPart).trans hFound,
          hRep.leads_part hBelow hLists.here hParts hBefore hFirst hLeads,
          hFoundWithin, .intro ?_ ?_⟩
        · exact fun _ => (hWide.here hFirst).trans hInside
        · have hEcho := hSpanned.pairwise_echo
          rw [← Site.map_outline_parts, hParts, List.map_append,
            List.map_cons] at hEcho
          have hLater :=
            (List.pairwise_cons.1 (List.pairwise_append.1 hEcho).2.1).1
          rw [← Site.map_outline_parts, List.forall_mem_map]
          intro other hOther
          have hOtherSpanned := hPartSpanned other hOther
          rw [hParts] at hOther
          rcases List.mem_append.1 hOther with hOther | hOther
          · exact hOtherSpanned.wide_of_not_within (hBefore other hOther)
          · rcases List.mem_cons.1 hOther with rfl | hOther
            · exact hWide
            · exact (hLater _ (List.mem_map_of_mem hOther)).wide hProper
                hOtherSpanned hFirst hWide

/- The search ends where the descent by sites does. -/
theorem locate_eq_some
    {found : NodeId}
    (hRep : store.Represents top)
    (hLists : top.outline.Forall Outline.ListsParts)
    (hSize : store.size ≤ defaultBudget)
    (hWithin : range.Within top.location)
    (hLeads : store.Leads range top.id found) :
    (store.locate range top.id).value = some found := by
  have hCovers := (hRep.covers_iff .refl range).2 hWithin
  rcases locate_leads (hRep.ordered hLists) hSize hCovers with
    ⟨final, hFinal, hFinalLeads⟩
  rw [hFinal, hFinalLeads.unique hLeads]

end Represents

end Store

end ShapeTypes

------------------------------------------------------------
-- The Tightest Node
------------------------------------------------------------

namespace ShapeTypes

open Concrete (Tree)

namespace Store

/-
  In the store of a nested program that has no more nodes
  than the search may look at, a range that is not empty is
  found exactly if the root contains it.  What is found
  contains the range and lies inside every node that does.
-/
theorem locate_tightest
    {source : String}
    {tree : Tree}
    {store : Store}
    {range : SourceRange}
    (hBuilt : (build source (some tree)).value = .ok store)
    (hNested : tree.Nested)
    (hBodies : tree.ArrowsHaveBodies)
    (hSize : store.size ≤ defaultBudget)
    (hProper : range.start < range.stop) :
    ∃ root rootNode,
      store.root = some root ∧
        store.find? root = some rootNode ∧
        ((store.locate range root).value.isSome ↔
          range.Within rootNode.location) ∧
        ∀ id, (store.locate range root).value = some id →
          ∃ node, store.find? id = some node ∧
            range.Within node.location ∧
              ∀ other otherNode, store.find? other = some otherNode →
                range.Within otherNode.location →
                  node.location.Inside otherNode.location := by
  rcases build_eq_ok_iff.1 hBuilt with ⟨_, _, rfl⟩
  have hRep := ofProgram_represents source.toList tree
  have hLists := programOutline_listsParts source.toList hBodies
  have hSpanned := programOutline_spanned source.toList hNested hBodies
  rcases hRep.find .refl with ⟨parent, hRoot⟩
  refine ⟨_, _, hRep.root, hRoot, ?_⟩
  by_cases hWithin : range.Within (programSite source.toList tree).location
  · rcases hRep.exists_tightest hProper .refl hLists hSpanned hWithin with
      ⟨found, hBelow, hLeads, hFound, hWide⟩
    have hLocate :=
      hRep.locate_eq_some hLists hSize hWithin hLeads
    rw [hLocate]
    refine ⟨iff_of_true rfl hWithin, ?_⟩
    rintro id ⟨⟩
    rcases hRep.find hBelow with ⟨foundParent, hFind⟩
    refine ⟨_, hFind, hFound, ?_⟩
    intro other otherNode hOther hOtherWithin
    rcases hRep.exists_site hOther with ⟨site, hSite, _, hNode⟩
    rw [hNode] at hOtherWithin ⊢
    exact (hSite.forall_outline hWide).here hOtherWithin
  · have hLocate :=
      locate_eq_none (mt (hRep.covers_iff .refl range).1 hWithin)
    rw [hLocate]
    exact ⟨iff_of_false (by simp) hWithin, by simp⟩

/-
  The placeholder in the name of the sample's method stands
  twice in the store, as node 4 and as node 7.  The first is
  found.
-/
theorem locate_tightest_sample :
    ∃ node,
      ((ofProgram Concrete.Sample.source.toList
          Concrete.Sample.tree).locate ⟨⟨0, 21⟩, ⟨0, 24⟩⟩ 17).value =
          some 4 ∧
        (ofProgram Concrete.Sample.source.toList
          Concrete.Sample.tree).find? 4 = some node ∧
        ∀ other otherNode,
          (ofProgram Concrete.Sample.source.toList
              Concrete.Sample.tree).find? other = some otherNode →
            SourceRange.Within ⟨⟨0, 21⟩, ⟨0, 24⟩⟩ otherNode.location →
              node.location.Inside otherNode.location := by
  have hBuilt :
      (build Concrete.Sample.source (some Concrete.Sample.tree)).value =
        .ok (ofProgram Concrete.Sample.source.toList
          Concrete.Sample.tree) :=
    build_eq_ok_iff.2 ⟨by decide +kernel, by decide +kernel, rfl⟩
  have hProper :
      (⟨⟨0, 21⟩, ⟨0, 24⟩⟩ : SourceRange).start <
        (⟨⟨0, 21⟩, ⟨0, 24⟩⟩ : SourceRange).stop := by
    decide
  have hFound :
      ((ofProgram Concrete.Sample.source.toList
          Concrete.Sample.tree).locate ⟨⟨0, 21⟩, ⟨0, 24⟩⟩ 17).value =
        some 4 := by
    decide +kernel
  rcases locate_tightest hBuilt (by decide +kernel) (by decide +kernel)
      (by decide +kernel) hProper with
    ⟨root, rootNode, hRoot, _, _, hTight⟩
  have hLast :
      (ofProgram Concrete.Sample.source.toList
        Concrete.Sample.tree).root = some 17 := by
    decide +kernel
  obtain rfl : root = 17 := Option.some.inj (hRoot.symm.trans hLast)
  rcases hTight 4 hFound with ⟨node, hNode, _, hInside⟩
  exact ⟨node, hFound, hNode, hInside⟩

end Store

end ShapeTypes
