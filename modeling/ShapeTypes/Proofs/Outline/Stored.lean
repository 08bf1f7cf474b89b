import Mathlib.Order.Basic
import ShapeTypes.Proofs.Outline.Site
import ShapeTypes.Store.Locate
import ShapeTypes.Store.Program

/-
  Stores of outlines.

  What is stored for an outline is the outline at its site:
  every node has the span of its part, refers to the ids of
  the sites below, and no other ids are touched.  An outline
  is laid out as if ids never ran out, and it is stored as it
  is laid out exactly when there are enough of them.

  Key definitions include:
    * `ShapeTypes.Site.node`
    * `ShapeTypes.Outline.lay`
    * `ShapeTypes.Store.Appended`
    * `ShapeTypes.Store.Counted`
    * `ShapeTypes.Store.Represents`
    * `ShapeTypes.Store.ofProgram`

  Key theorems include:
    * `ShapeTypes.Outline.lay_appended`
    * `ShapeTypes.Outline.write_cases`
    * `ShapeTypes.Store.Represents.mem_childrenOf_iff`
    * `ShapeTypes.Store.ofProgram_represents`
    * `ShapeTypes.Store.addProgram_empty`
    * `ShapeTypes.Store.build_eq_ok_iff`
-/

------------------------------------------------------------
-- Laying Out an Outline
------------------------------------------------------------

namespace ShapeTypes

/- The top node of a site, with a parent. -/
def Site.node
    (site : Site)
    (parent : Option NodeId) :
    Node :=
  ⟨site.id, site.location, site.kind, parent⟩

/- Store a new node under the next id, however large that is. -/
def Store.push
    (store : Store)
    (location : Location)
    (kind : Kind) :
    NodeId × Store :=
  (store.lastId + 1,
   store.put { id := store.lastId + 1, location := location, kind := kind })

theorem Store.lastId_push
    (store : Store)
    (location : Location)
    (kind : Kind) :
    (store.push location kind).2.lastId = store.lastId + 1 := by
  simp [push, put]

namespace Outline

mutual

/-
  The id that an outline gets, and the store that has it, as
  if ids never ran out.
-/
def lay : Outline → Store → NodeId × Store
  | node location kind parts, store =>
      let (ids, store) := layAll parts store
      let ids := ids.toArray
      store.push location (kind.map fun place => ids.getD place 0)

def layAll : List Outline → Store → List NodeId × Store
  | [], store => ([], store)
  | part :: parts, store =>
      let (id, store) := lay part store
      let (ids, store) := layAll parts store
      (id :: ids, store)

end

end Outline

/-
  One store is another with some sites stored behind its
  last id.
-/
structure Store.Appended
    (before : Store)
    (sites : List Site)
    (after : Store) : Prop where
  root : after.root = before.root
  grows : before.lastId ≤ after.lastId
  frame :
    ∀ i : Nat, i ≤ before.lastId ∨ after.lastId < i →
      after.find? i = before.find? i
  found :
    ∀ top ∈ sites, ∀ site, top.Below site →
      after.find? site.id = some (site.node none)

namespace Store

/- A node that is pushed behind its parts completes its site. -/
theorem push_appended
    {before written : Store}
    {top : Site}
    (hParts : before.Appended top.parts written)
    (hLast : written.lastId + 1 = top.id) :
    before.Appended [top] (written.push top.location top.kind).2 := by
  have hFind :
      ∀ i : Nat, i ≠ top.id →
        (written.push top.location top.kind).2.find? i =
          written.find? i := by
    intro i hNe
    simp only [push, hLast]
    rw [find?_put, if_neg]
    exact fun hEq => hNe hEq.symm
  have hLater :
      (written.push top.location top.kind).2.lastId = top.id := by
    rw [lastId_push, hLast]
  have hGrows := hParts.grows
  refine ⟨hParts.root, by omega, ?_, ?_⟩
  · intro i hOutside
    rw [hFind i (by omega)]
    exact hParts.frame i (by omega)
  · intro site hMem lower hBelow
    obtain rfl := List.mem_singleton.1 hMem
    rcases hBelow.eq_or_exists_part with rfl | ⟨part, hPart, hPartBelow⟩
    · simp only [push, hLast]
      rw [find?_put, if_pos rfl]
      rfl
    · have hBounds := hPartBelow.bounds
      have hLt := (Site.bounds_of_mem_parts hPart).2
      rw [hFind lower.id (by omega)]
      exact hParts.found part hPart lower hPartBelow

end Store

namespace Outline

mutual

/- What is laid out is the outline at its site. -/
theorem lay_appended : ∀ (outline : Outline) (store : Store),
    (outline.lay store).1 = store.lastId + outline.size ∧
      (outline.lay store).2.lastId = store.lastId + outline.size ∧
        store.Appended [⟨store.lastId, outline⟩] (outline.lay store).2
  | node location kind parts, store => by
      obtain ⟨hIds, hLast, hParts⟩ := layAll_appended parts store
      let top : Site := ⟨store.lastId, node location kind parts⟩
      have hTop : (layAll parts store).2.lastId + 1 = top.id := by
        rw [hLast, Site.id_eq]
        rfl
      have hKind :
          (kind.map fun place =>
              (layAll parts store).1.toArray.getD place 0) =
            top.kind := by
        rw [hIds]
        congr 1
        funext place
        simp [top, Site.idAt, Site.parts, Outline.parts]
      have hLay :
          lay (node location kind parts) store =
            (layAll parts store).2.push top.location top.kind := by
        rw [← hKind]
        rfl
      rw [hLay]
      refine ⟨hTop, ?_, Store.push_appended hParts hTop⟩
      rw [Store.lastId_push, hTop]
      rfl

theorem layAll_appended : ∀ (parts : List Outline) (store : Store),
    (layAll parts store).1 = (Site.listFrom store.lastId parts).map Site.id ∧
      (layAll parts store).2.lastId = store.lastId + sizeAll parts ∧
        store.Appended (Site.listFrom store.lastId parts)
          (layAll parts store).2
  | [], store => by
      refine ⟨rfl, rfl, rfl, Nat.le_refl _, fun _ _ => rfl, ?_⟩
      intro top hMem
      simp [Site.listFrom] at hMem
  | part :: parts, store => by
      obtain ⟨hId, hLast, hPart⟩ := lay_appended part store
      obtain ⟨hIds, hLasts, hParts⟩ :=
        layAll_appended parts (part.lay store).2
      have hFirst :
          (Site.mk store.lastId part).id = (part.lay store).2.lastId :=
        hLast.symm
      have hLay :
          layAll (part :: parts) store =
            ((part.lay store).1 ::
                (layAll parts (part.lay store).2).1,
              (layAll parts (part.lay store).2).2) :=
        rfl
      have hGrows := hPart.grows
      have hGrow := hParts.grows
      rw [hLast] at hIds hLasts
      rw [hLay]
      refine ⟨?_, ?_, ?_, ?_, ?_, ?_⟩
      · rw [Site.listFrom, List.map_cons, ← hIds, Site.id, ← hId]
      · rw [sizeAll, ← Nat.add_assoc, ← hLasts]
      · exact hParts.root.trans hPart.root
      · exact Nat.le_trans hGrows hGrow
      · intro i hOutside
        dsimp only at hOutside ⊢
        rw [hParts.frame i (by omega), hPart.frame i (by omega)]
      · intro top hMem site hBelow
        rcases List.mem_cons.1 hMem with rfl | hMem
        · have hBounds := hBelow.bounds
          rw [hParts.frame site.id (Or.inl (by omega))]
          exact hPart.found _ (by simp) site hBelow
        · rw [← hLast] at hMem
          exact hParts.found top hMem site hBelow

end

end Outline

end ShapeTypes

------------------------------------------------------------
-- Enough Ids
------------------------------------------------------------

namespace ShapeTypes

namespace Store

/- The ids in use are among those that were given out. -/
def Counted
    (store : Store) : Prop :=
  ∀ id ∈ store.nodes, id ≤ store.lastId

theorem counted_empty :
    empty.Counted := by
  simp [Counted, empty]

/-
  A new node is pushed.  Where the ids in use are counted,
  this fails only if there is no id left.
-/
theorem alloc_cases
    (store : Store)
    (location : Location)
    (kind : Kind) :
    (store.alloc location kind =
          (.ok (store.push location kind).1, (store.push location kind).2) ∧
        store.lastId < maxId) ∨
      ∃ cause left,
        store.alloc location kind = (.error cause, left) ∧
          (store.Counted →
            cause = .idsExhausted ∧ left = store ∧
              maxId ≤ store.lastId) := by
  by_cases hLess : store.lastId < maxId
  · rw [alloc, if_neg (Nat.not_le.2 hLess)]
    by_cases hTaken : store.lastId + 1 ∈ store.nodes
    · refine Or.inr
        ⟨.duplicateId (store.lastId + 1),
          { store with lastId := store.lastId + 1 }, ?_, ?_⟩
      · simp only [add, if_neg (Nat.succ_ne_zero store.lastId), if_pos hTaken]
        rfl
      · intro hCounted
        exact absurd (hCounted _ hTaken) (Nat.not_succ_le_self _)
    · refine Or.inl ⟨?_, hLess⟩
      simp only [add, if_neg (Nat.succ_ne_zero store.lastId), if_neg hTaken]
      simp [put, push, Except.map]
  · rw [alloc, if_pos (Nat.not_lt.1 hLess)]
    exact Or.inr ⟨_, _, rfl, fun _ => ⟨rfl, rfl, Nat.not_lt.1 hLess⟩⟩

theorem Appended.counted
    {before after : Store}
    {sites : List Site}
    (hAppended : before.Appended sites after)
    (hCounted : before.Counted) :
    after.Counted := by
  intro id hStored
  by_contra hBeyond
  have hOld := hAppended.frame id (Or.inr (Nat.lt_of_not_le hBeyond))
  rcases mem_nodes_iff.1 hStored with ⟨node, hFind⟩
  rw [hFind] at hOld
  exact hBeyond
    (Nat.le_trans (hCounted id (mem_nodes_iff.2 ⟨node, hOld.symm⟩))
      hAppended.grows)

end Store

namespace Outline

mutual

/-
  An outline is stored as it is laid out.  Where the ids in
  use are counted, this fails only if there are not enough.
-/
theorem write_cases :
    ∀ (outline : Outline) (store : Store),
      (outline.write store =
            (.ok (outline.lay store).1, (outline.lay store).2) ∧
          store.lastId + outline.size ≤ Store.maxId) ∨
        ∃ cause left,
          outline.write store = (.error cause, left) ∧
            (store.Counted →
              cause = .idsExhausted ∧
                Store.maxId < store.lastId + outline.size)
  | node location kind parts, store => by
      obtain ⟨-, hLast, hLaid⟩ := layAll_appended parts store
      rw [size, write]
      rcases writeAll_cases parts store with
        ⟨hParts, -⟩ | ⟨cause, left, hParts, hCause⟩
      · rw [hParts]
        dsimp only
        rcases Store.alloc_cases (layAll parts store).2 location
            (kind.map fun place =>
              (layAll parts store).1.toArray.getD place 0) with
          ⟨hAlloc, hLess⟩ | ⟨cause, left, hAlloc, hCause⟩
        · rw [hLast] at hLess
          exact Or.inl ⟨hAlloc, hLess⟩
        · refine Or.inr ⟨cause, left, hAlloc, ?_⟩
          intro hCounted
          rw [hLast] at hCause
          obtain ⟨hExhausted, -, hFull⟩ := hCause (hLaid.counted hCounted)
          exact ⟨hExhausted, Nat.lt_succ_of_le hFull⟩
      · rw [hParts]
        refine Or.inr ⟨cause, left, rfl, ?_⟩
        intro hCounted
        exact (hCause hCounted).imp_right Nat.lt_succ_of_lt

theorem writeAll_cases :
    ∀ (parts : List Outline) (store : Store),
      (writeAll parts store =
            (.ok (layAll parts store).1, (layAll parts store).2) ∧
          (store.lastId ≤ Store.maxId →
            store.lastId + sizeAll parts ≤ Store.maxId)) ∨
        ∃ cause left,
          writeAll parts store = (.error cause, left) ∧
            (store.Counted →
              cause = .idsExhausted ∧
                Store.maxId < store.lastId + sizeAll parts)
  | [], _ => Or.inl ⟨rfl, fun hBound => hBound⟩
  | part :: parts, store => by
      obtain ⟨-, hLast, hLaid⟩ := lay_appended part store
      rw [sizeAll, writeAll, ← Nat.add_assoc]
      rcases write_cases part store with
        ⟨hPart, hRoom⟩ | ⟨cause, left, hPart, hCause⟩
      · have hRest := writeAll_cases parts (part.lay store).2
        rw [hLast] at hRest
        rw [hPart]
        dsimp only
        rcases hRest with ⟨hRest, hBound⟩ | ⟨cause, left, hRest, hCause⟩
        · rw [hRest]
          exact Or.inl ⟨rfl, fun _ => hBound hRoom⟩
        · rw [hRest]
          refine Or.inr ⟨cause, left, rfl, ?_⟩
          intro hCounted
          exact hCause (hLaid.counted hCounted)
      · rw [hPart]
        refine Or.inr ⟨cause, left, rfl, ?_⟩
        intro hCounted
        exact (hCause hCounted).imp_right
          fun hLess => Nat.lt_of_lt_of_le hLess (Nat.le_add_right _ _)

end

end Outline

end ShapeTypes

------------------------------------------------------------
-- The Store of a Program
------------------------------------------------------------

namespace ShapeTypes

namespace Store

open Concrete (Tree)

/-
  A store holds the nodes of a site and no others, whatever
  their parents are, and the top is the root.
-/
structure Represents
    (store : Store)
    (top : Site) : Prop where
  root : store.root = some top.id
  find :
    ∀ {site}, top.Below site →
      ∃ parent, store.find? site.id = some (site.node parent)
  below :
    ∀ {id node}, store.find? id = some node →
      ∃ site, top.Below site ∧ site.id = id

namespace Represents

variable {store : Store} {top site : Site}

theorem exists_site
    {id : NodeId}
    {node : Node}
    (hRep : store.Represents top)
    (hFind : store.find? id = some node) :
    ∃ site, top.Below site ∧ site.id = id ∧
      node = site.node node.parent := by
  rcases hRep.below hFind with ⟨site, hBelow, rfl⟩
  rcases hRep.find hBelow with ⟨parent, hSite⟩
  rw [hSite, Option.some.injEq] at hFind
  subst hFind
  exact ⟨site, hBelow, rfl, rfl⟩

theorem childrenOf
    (hRep : store.Represents top)
    (hBelow : top.Below site) :
    store.childrenOf site.id =
      site.outline.kind.children.map site.idAt := by
  rcases hRep.find hBelow with ⟨parent, hFind⟩
  simp [Store.childrenOf, hFind, Site.node, Site.kind]

theorem mem_nodes
    (hRep : store.Represents top)
    (hBelow : top.Below site) :
    site.id ∈ store.nodes := by
  rcases hRep.find hBelow with ⟨parent, hFind⟩
  exact mem_nodes_iff.2 ⟨_, hFind⟩

/- What a node refers to is a part of its site. -/
theorem exists_part_of_mem_childrenOf
    {child : Nat}
    (hRep : store.Represents top)
    (hBelow : top.Below site)
    (hRefers : site.outline.RefersToParts)
    (hChild : child ∈ store.childrenOf site.id) :
    ∃ part ∈ site.parts, part.id = child := by
  rw [hRep.childrenOf hBelow, List.mem_map] at hChild
  rcases hChild with ⟨place, hPlace, rfl⟩
  rcases site.exists_part hRefers hPlace with ⟨part, hPart⟩
  exact ⟨part, List.mem_of_getElem? hPart, (Site.idAt_eq hPart).symm⟩

/- The parts of a node are the sites that its kind lists. -/
theorem mem_childrenOf_iff
    {child : Nat}
    (hRep : store.Represents top)
    (hBelow : top.Below site)
    (hLists : site.outline.ListsParts) :
    child ∈ store.childrenOf site.id ↔
      ∃ part ∈ site.parts, part.id = child := by
  constructor
  · exact hRep.exists_part_of_mem_childrenOf hBelow hLists.refersToParts
  · rintro ⟨part, hPart, rfl⟩
    rcases List.getElem?_of_mem hPart with ⟨place, hPlace⟩
    rw [hRep.childrenOf hBelow, List.mem_map]
    refine ⟨place, (hLists.all place).2 ?_, Site.idAt_eq hPlace⟩
    rw [← Site.length_parts]
    exact (List.getElem?_eq_some_iff.1 hPlace).1

/- A node contains a range when its site does. -/
theorem covers_iff
    (hRep : store.Represents top)
    (hBelow : top.Below site)
    (range : SourceRange) :
    store.Covers range site.id ↔ range.Within site.location := by
  rcases hRep.find hBelow with ⟨parent, hFind⟩
  simp [Covers, hFind, Site.node]

end Represents

/- The outline of a program at the first ids. -/
def programSite
    (source : List Char)
    (tree : Tree) :
    Site :=
  ⟨0, programOutline source tree⟩

/- A store with the outline of a program and its top as root. -/
def ofProgram
    (source : List Char)
    (tree : Tree) :
    Store :=
  let (root, store) := (programOutline source tree).lay empty
  store.setRoot root

/- What is built holds the outline of the program. -/
theorem ofProgram_represents
    (source : List Char)
    (tree : Tree) :
    (ofProgram source tree).Represents (programSite source tree) := by
  obtain ⟨hId, hLast, hLaid⟩ :=
    (programOutline source tree).lay_appended Store.empty
  have hEmpty : ∀ i : Nat, Store.empty.find? i = none := by
    intro i
    simp [find?, Store.empty]
  constructor
  · simp only [ofProgram, setRoot, hId]
    rfl
  · intro site hBelow
    exact ⟨none, hLaid.found _ (List.mem_singleton.2 rfl) site hBelow⟩
  · intro id node hFind
    by_cases hInside :
        0 < id ∧ id ≤ (programSite source tree).id
    · exact Site.exists_below hInside.1 hInside.2
    · have hOutside :
          ((programOutline source tree).lay Store.empty).2.find? id =
            Store.empty.find? id := by
        apply hLaid.frame
        rw [hLast]
        exact (not_and_or.1 hInside).imp Nat.le_of_not_lt Nat.lt_of_not_le
      rw [hEmpty id] at hOutside
      rw [ofProgram] at hFind
      exact absurd (hOutside.symm.trans hFind) (by simp)

/- What is built has no parent links yet. -/
theorem ofProgram_unlinked
    (source : List Char)
    (tree : Tree)
    (id : NodeId) :
    (ofProgram source tree).parent? id = none := by
  cases hFind : (ofProgram source tree).find? id with
  | none => rw [parent?, hFind, Option.bind_none]
  | some node =>
      rcases (ofProgram_represents source tree).below hFind with
        ⟨site, hBelow, rfl⟩
      have hLaid :=
        ((programOutline source tree).lay_appended Store.empty).2.2
      have hFound :
          (ofProgram source tree).find? site.id = some (site.node none) :=
        hLaid.found _ (List.mem_singleton.2 rfl) site hBelow
      rw [parent?, hFound]
      rfl

/- A program is stored whole if there are enough ids for it. -/
theorem addProgram_empty
    (source : List Char)
    (tree : Tree) :
    empty.addProgram source tree =
      if (programOutline source tree).size ≤ maxId then
        .ok (ofProgram source tree)
      else
        .error .idsExhausted := by
  have hCases := (programOutline source tree).write_cases empty
  have hStart : empty.lastId + (programOutline source tree).size =
      (programOutline source tree).size := Nat.zero_add _
  rw [hStart] at hCases
  rw [addProgram]
  rcases hCases with ⟨hWritten, hRoom⟩ | ⟨cause, left, hWritten, hCause⟩
  · rw [hWritten, if_pos hRoom]
    rfl
  · obtain ⟨rfl, hFull⟩ := hCause counted_empty
    rw [hWritten, if_neg (Nat.not_le.2 hFull)]

/- A store that is built is that of an accepted program. -/
theorem build_eq_ok_iff
    {source : String}
    {tree : Tree}
    {store : Store} :
    (build source (some tree)).value = .ok store ↔
      tree.refusal? source.toList = none ∧
        (programOutline source.toList tree).size ≤ maxId ∧
        store = ofProgram source.toList tree := by
  unfold build Builder.build
  cases hRefusal : tree.refusal? source.toList with
  | none =>
      by_cases hRoom : (programOutline source.toList tree).size ≤ maxId
      · simp [hRefusal, addProgram_empty, hRoom, eq_comm]
      · simp [hRefusal, addProgram_empty, hRoom]
  | some refusal => cases refusal <;> simp [hRefusal]

end Store

end ShapeTypes
