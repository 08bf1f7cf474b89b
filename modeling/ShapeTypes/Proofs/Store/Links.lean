import Mathlib.Data.List.Nodup
import ShapeTypes.Proofs.Outline.Stored
import ShapeTypes.Store.Parents

/-
  The parent links of a store.

  The walk visits every id at most once, gives it as parent a
  node that lists it, and leaves nothing out that can be
  reached.  In the store of a site, the parent of a part is
  therefore the one node that has the part.

  Key definitions include:
    * `ShapeTypes.Store.Visits`

  Key theorems include:
    * `ShapeTypes.Store.links_visits`
    * `ShapeTypes.Store.find?_record`
    * `ShapeTypes.Store.Represents.link`
    * `ShapeTypes.Store.Represents.find?_link`
-/

------------------------------------------------------------
-- Visits
------------------------------------------------------------

namespace ShapeTypes

namespace Store

/-
  What is visited when `pending` is worked off, and the ids
  that are seen in the end.
-/
structure Visits
    (store : Store)
    (seen : NodeSet)
    (pending visited : List Link)
    (final : NodeSet) : Prop where
  new : ∀ link ∈ visited, link.id ∉ seen ∧ link.id ∈ store.nodes
  nodup : (visited.map Link.id).Nodup
  listed :
    ∀ link ∈ visited,
      link ∈ pending ∨
        ∃ owner ∈ visited,
          link.parent = some owner.id ∧
            link.id ∈ store.childrenOf owner.id
  kept : ∀ id, id ∈ seen → id ∈ final
  reached : ∀ link ∈ pending, link.id ∈ final
  closed :
    ∀ link ∈ visited, ∀ child ∈ store.childrenOf link.id, child ∈ final
  only :
    ∀ id, id ∈ final →
      id ∈ seen ∨ id ∉ store.nodes ∨ ∃ link ∈ visited, link.id = id

namespace Visits

variable {store : Store} {seen final : NodeSet}
variable {pending visited : List Link} {next : Link}

theorem nil
    (store : Store)
    (seen : NodeSet) :
    store.Visits seen [] [] seen := by
  constructor <;> simp +contextual

/- An id that was seen before is skipped. -/
theorem skip
    (hSeen : next.id ∈ seen)
    (hRest : store.Visits seen pending visited final) :
    store.Visits seen (next :: pending) visited final := by
  refine { hRest with listed := ?_, reached := ?_ }
  · intro link hLink
    exact (hRest.listed link hLink).imp_left (List.mem_cons_of_mem next)
  · intro link hLink
    rcases List.mem_cons.1 hLink with rfl | hLink
    · exact hRest.kept _ hSeen
    · exact hRest.reached link hLink

/- An id that is not stored is seen, but not visited. -/
theorem miss
    (hMissing : next.id ∉ store.nodes)
    (hRest :
      store.Visits (seen.insert next.id) pending visited final) :
    store.Visits seen (next :: pending) visited final := by
  constructor
  · intro link hLink
    have hNew := hRest.new link hLink
    exact ⟨fun hSeen => hNew.1 (NodeSet.mem_insert.2 (Or.inr hSeen)),
      hNew.2⟩
  · exact hRest.nodup
  · intro link hLink
    exact (hRest.listed link hLink).imp_left (List.mem_cons_of_mem next)
  · intro id hSeen
    exact hRest.kept id (NodeSet.mem_insert.2 (Or.inr hSeen))
  · intro link hLink
    rcases List.mem_cons.1 hLink with rfl | hLink
    · exact hRest.kept _ (NodeSet.mem_insert.2 (Or.inl rfl))
    · exact hRest.reached link hLink
  · exact hRest.closed
  · intro id hFinal
    rcases hRest.only id hFinal with hSeen | hOther
    · rcases NodeSet.mem_insert.1 hSeen with rfl | hSeen
      · exact Or.inr (Or.inl hMissing)
      · exact Or.inl hSeen
    · exact Or.inr hOther

/- A stored id is visited, and its parts before the others. -/
theorem visit
    (hNew : next.id ∉ seen)
    (hStored : next.id ∈ store.nodes)
    (hRest :
      store.Visits (seen.insert next.id)
        ((store.childrenOf next.id).map
            (fun child => ⟨child, some next.id⟩) ++ pending)
        visited final) :
    store.Visits seen (next :: pending) (next :: visited) final := by
  constructor
  · intro link hLink
    rcases List.mem_cons.1 hLink with rfl | hLink
    · exact ⟨hNew, hStored⟩
    · have hLater := hRest.new link hLink
      exact ⟨fun hSeen => hLater.1 (NodeSet.mem_insert.2 (Or.inr hSeen)),
        hLater.2⟩
  · rw [List.map_cons, List.nodup_cons]
    refine ⟨?_, hRest.nodup⟩
    intro hMem
    rcases List.mem_map.1 hMem with ⟨link, hLink, hId⟩
    exact (hRest.new link hLink).1 (NodeSet.mem_insert.2 (Or.inl hId))
  · intro link hLink
    rcases List.mem_cons.1 hLink with rfl | hLink
    · exact Or.inl (by simp)
    · rcases hRest.listed link hLink with hPending | ⟨owner, hOwner, hListed⟩
      · rcases List.mem_append.1 hPending with hChild | hPending
        · rcases List.mem_map.1 hChild with ⟨child, hMem, rfl⟩
          exact Or.inr ⟨next, by simp, rfl, hMem⟩
        · exact Or.inl (List.mem_cons_of_mem next hPending)
      · exact Or.inr ⟨owner, List.mem_cons_of_mem next hOwner, hListed⟩
  · intro id hSeen
    exact hRest.kept id (NodeSet.mem_insert.2 (Or.inr hSeen))
  · intro link hLink
    rcases List.mem_cons.1 hLink with rfl | hLink
    · exact hRest.kept _ (NodeSet.mem_insert.2 (Or.inl rfl))
    · exact hRest.reached link (List.mem_append_right _ hLink)
  · intro link hLink child hChild
    rcases List.mem_cons.1 hLink with rfl | hLink
    · exact hRest.reached ⟨child, some link.id⟩
        (List.mem_append_left _ (List.mem_map.2 ⟨child, hChild, rfl⟩))
    · exact hRest.closed link hLink child hChild
  · intro id hFinal
    rcases hRest.only id hFinal with hSeen | hMissing | ⟨link, hLink, rfl⟩
    · rcases NodeSet.mem_insert.1 hSeen with rfl | hSeen
      · exact Or.inr (Or.inr ⟨next, by simp, rfl⟩)
      · exact Or.inl hSeen
    · exact Or.inr (Or.inl hMissing)
    · exact Or.inr (Or.inr ⟨link, List.mem_cons_of_mem next hLink, rfl⟩)

end Visits

/- What the walk does. -/
theorem links_visits
    (store : Store)
    (seen : NodeSet)
    (pending : List Link) :
    store.Visits seen pending (store.links seen pending).1
      (store.links seen pending).2 := by
  fun_induction store.links seen pending with
  | case1 seen => exact .nil store seen
  | case2 seen next rest hSeen ih => exact .skip hSeen ih
  | case3 seen next rest hNew hStored below later final hLinks ih =>
      rw [hLinks] at ih
      exact .visit hNew hStored ih
  | case4 seen next rest hNew hMissing ih => exact .miss hMissing ih

end Store

end ShapeTypes

------------------------------------------------------------
-- Recorded Links
------------------------------------------------------------

namespace ShapeTypes

namespace Store

variable {store : Store} {visited : List Link}

theorem find?_record_of_not_mem
    {id : NodeId}
    (hNot : id ∉ visited.map Link.id) :
    (store.record visited).find? id = store.find? id := by
  induction visited generalizing store with
  | nil => rfl
  | cons link visited ih =>
      rw [List.map_cons, List.mem_cons, not_or] at hNot
      rw [record, List.foldl_cons]
      refine (ih hNot.2).trans ?_
      rw [find?_setParent, if_neg (Ne.symm hNot.1)]

theorem find?_record
    {link : Link}
    (hNodup : (visited.map Link.id).Nodup)
    (hMem : link ∈ visited) :
    (store.record visited).find? link.id =
      (store.find? link.id).map fun node =>
        { node with parent := link.parent } := by
  induction visited generalizing store with
  | nil => simp at hMem
  | cons first visited ih =>
      rw [List.map_cons, List.nodup_cons] at hNodup
      rw [record, List.foldl_cons]
      rcases List.mem_cons.1 hMem with rfl | hMem
      · refine (find?_record_of_not_mem hNodup.1).trans ?_
        rw [find?_setParent, if_pos rfl]
      · refine (ih hNodup.2 hMem).trans ?_
        rw [find?_setParent, if_neg]
        intro hEq
        rw [hEq] at hNodup
        exact hNodup.1 (List.mem_map_of_mem hMem)

@[simp]
theorem size_record
    (store : Store)
    (visited : List Link) :
    (store.record visited).size = store.size := by
  induction visited generalizing store with
  | nil => rfl
  | cons link visited ih =>
      rw [record, List.foldl_cons]
      exact (ih _).trans Std.ExtTreeMap.size_modify

/- The linked store is the store with the links of the root. -/
theorem value_link
    {root : NodeId}
    (hRoot : store.root = some root) :
    store.link.value =
      store.record (store.links ∅ [⟨root, none⟩]).1 := by
  simp [link, hRoot, linkFrom]

@[simp]
theorem size_link
    (store : Store) :
    store.link.value.size = store.size := by
  cases hRoot : store.root with
  | none => simp [link, hRoot]
  | some root => rw [value_link hRoot, size_record]

end Store

end ShapeTypes

------------------------------------------------------------
-- Links of Sites
------------------------------------------------------------

namespace ShapeTypes

namespace Store

namespace Represents

variable {store : Store} {top site owner part : Site}

theorem setParent
    (hRep : store.Represents top)
    (id : NodeId)
    (parent : Option NodeId) :
    (store.setParent id parent).Represents top := by
  refine ⟨hRep.root, ?_, ?_⟩
  · intro site hBelow
    rcases hRep.find hBelow with ⟨old, hFind⟩
    rw [find?_setParent]
    split
    · exact ⟨parent, by rw [hFind]; rfl⟩
    · exact ⟨old, hFind⟩
  · intro other node hFind
    rw [find?_setParent] at hFind
    split at hFind
    · rcases Option.map_eq_some_iff.1 hFind with ⟨old, hOld, -⟩
      exact hRep.below hOld
    · exact hRep.below hFind

theorem record
    (hRep : store.Represents top)
    (visited : List Link) :
    (store.record visited).Represents top := by
  induction visited generalizing store with
  | nil => exact hRep
  | cons link visited ih => exact ih (hRep.setParent link.id link.parent)

theorem link
    (hRep : store.Represents top) :
    store.link.value.Represents top := by
  rw [value_link hRep.root]
  exact hRep.record _

/- Every node of the site is visited. -/
theorem exists_link
    {visited : List Link}
    {final : NodeSet}
    (hRep : store.Represents top)
    (hLists : top.outline.Forall Outline.ListsParts)
    (hVisits : store.Visits ∅ [⟨top.id, none⟩] visited final)
    (hBelow : top.Below site) :
    ∃ link ∈ visited, link.id = site.id := by
  have hVisited :
      ∀ {s}, top.Below s → s.id ∈ final →
        ∃ link ∈ visited, link.id = s.id := by
    intro s hs hFinal
    rcases hVisits.only s.id hFinal with hSeen | hMissing | hLink
    · simp at hSeen
    · exact absurd (hRep.mem_nodes hs) hMissing
    · exact hLink
  induction hBelow with
  | refl =>
      exact hVisited .refl (hVisits.reached ⟨top.id, none⟩ (by simp))
  | @part above lower hAbove hPart ih =>
      rcases ih with ⟨link, hLink, hId⟩
      refine hVisited (hAbove.part hPart) (hVisits.closed link hLink _ ?_)
      rw [hId, hRep.mem_childrenOf_iff hAbove
        (hAbove.forall_outline hLists).here]
      exact ⟨lower, hPart, rfl⟩

/- The parent of a part is its owner. -/
theorem find?_link
    (hRep : store.Represents top)
    (hLists : top.outline.Forall Outline.ListsParts)
    (hOwner : top.Below owner)
    (hPart : part ∈ owner.parts) :
    store.link.value.find? part.id =
      some (part.node (some owner.id)) := by
  have hVisits := store.links_visits ∅ [⟨top.id, none⟩]
  rcases hRep.exists_link hLists hVisits (hOwner.part hPart) with
    ⟨link, hLink, hId⟩
  have hParent : link.parent = some owner.id := by
    rcases hVisits.listed link hLink with hStart | ⟨other, hOther, hListed⟩
    · obtain rfl := List.mem_singleton.1 hStart
      have hBounds := hOwner.bounds
      have hLt := (Site.bounds_of_mem_parts hPart).2
      have hTop : top.id = part.id := hId
      omega
    · rcases hListed with ⟨hParent, hChild⟩
      -- The node that lists the part is the owner.
      rcases mem_nodes_iff.1 (hVisits.new other hOther).2 with
        ⟨node, hNode⟩
      rcases hRep.below hNode with ⟨above, hAbove, hAboveId⟩
      rw [← hAboveId, hRep.mem_childrenOf_iff hAbove
        (hAbove.forall_outline hLists).here] at hChild
      rcases hChild with ⟨same, hSame, hSameId⟩
      have hEq : same = part :=
        (hAbove.part hSame).eq_of_id_eq (hOwner.part hPart)
          (hSameId.trans hId)
      rw [hEq] at hSame
      rw [hParent, ← hAboveId, hAbove.owner_unique hOwner hSame hPart]
  rcases hRep.find (hOwner.part hPart) with ⟨parent, hFind⟩
  rw [value_link hRep.root, ← hId, find?_record hVisits.nodup hLink, hId,
    hFind, hParent]
  rfl

end Represents

end Store

end ShapeTypes
