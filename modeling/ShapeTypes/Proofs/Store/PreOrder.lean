import Mathlib.Logic.Relation
import ShapeTypes.Proofs.Store.Calls

/-
  Parent links by recursion.

  A visit goes down from a node to its parts and back before
  the next part is visited.  Working off a list of pending
  links does the same, also where parts are shared, missing
  or lead back to nodes above them.

  Key definitions include:
    * `ShapeTypes.Store.visit`
    * `ShapeTypes.Store.ReachesOutside`
    * `ShapeTypes.Store.SameButParents`

  Key theorems include:
    * `ShapeTypes.Store.foldl_follow`
    * `ShapeTypes.Store.mem_linkFrom_iff_reachesOutside`
    * `ShapeTypes.Store.link_link`
    * `ShapeTypes.Store.linkFrom_preOrder`
-/

------------------------------------------------------------
-- Visits by Recursion
------------------------------------------------------------

namespace ShapeTypes

namespace Store

variable {store other : Store} {seen : NodeSet} {id : NodeId}

theorem setParent_sameKinds
    (store : Store)
    (id : NodeId)
    (parent : Option NodeId) :
    store.SameKinds (store.setParent id parent) :=
  store.record_sameKinds [⟨id, parent⟩]

/- When a stored id gets its parent and is seen, one less is unseen. -/
theorem unseen_setParent_lt
    {node : Node}
    (hNew : id ∉ seen)
    (hFind : store.find? id = some node)
    (parent : Option NodeId) :
    (store.setParent id parent).unseen (seen.insert id) <
      store.unseen seen := by
  rw [unseen, unseenIds, (store.setParent_sameKinds id parent).ids]
  exact unseen_insert_lt (mem_nodes_iff.2 ⟨node, hFind⟩) hNew

/- Seeing an id leaves no more ids unseen. -/
theorem unseen_insert_le
    (store : Store)
    (seen : NodeSet)
    (id : NodeId) :
    store.unseen (seen.insert id) ≤ store.unseen seen := by
  rw [unseen, unseenIds_insert]
  exact List.length_filter_le _ _

mutual

/-
  Visit a node that is reached from a parent.  An id that was
  seen is passed by.  Any other is seen from now on, and if it
  is stored, its parent is recorded and its parts are visited
  in their order.
-/
def visit
    (store : Store)
    (seen : NodeSet)
    (id : NodeId)
    (parent : Option NodeId) :
    { after : Store × NodeSet //
      after.1.unseen after.2 ≤ store.unseen seen } :=
  if _hSeen : id ∈ seen then
    ⟨(store, seen), Nat.le_refl _⟩
  else
    match _hFind : store.find? id with
    | none => ⟨(store, seen.insert id), store.unseen_insert_le seen id⟩
    | some node =>
        let below :=
          visitAll (store.setParent id parent) (seen.insert id)
            node.kind.children (some id)
        ⟨below.1,
          Nat.le_of_lt (Nat.lt_of_le_of_lt below.2
            (unseen_setParent_lt _hSeen _hFind parent))⟩
termination_by (store.unseen seen, 0)
decreasing_by
  exact Prod.Lex.left _ _ (unseen_setParent_lt _hSeen _hFind parent)

/- Visit some nodes in order that are all reached from one parent. -/
def visitAll
    (store : Store)
    (seen : NodeSet)
    (ids : List NodeId)
    (parent : Option NodeId) :
    { after : Store × NodeSet //
      after.1.unseen after.2 ≤ store.unseen seen } :=
  match ids with
  | [] => ⟨(store, seen), Nat.le_refl _⟩
  | id :: ids =>
      let first := visit store seen id parent
      let later := visitAll first.1.1 first.1.2 ids parent
      ⟨later.1, Nat.le_trans later.2 first.2⟩
termination_by (store.unseen seen, ids.length + 1)
decreasing_by
  · exact Prod.Lex.right _ (Nat.succ_pos _)
  · rcases Nat.lt_or_eq_of_le first.2 with hLt | hEq
    · exact Prod.Lex.left _ _ hLt
    · rw [hEq]
      exact Prod.Lex.right _ (by simp)

end

/- An id that was seen is passed by. -/
theorem visit_of_seen
    (hSeen : id ∈ seen)
    (parent : Option NodeId) :
    (store.visit seen id parent).1 = (store, seen) := by
  rw [visit, dif_pos hSeen]

/- An id that is not stored is seen only. -/
theorem visit_of_missing
    (hNew : id ∉ seen)
    (hFind : store.find? id = none)
    (parent : Option NodeId) :
    (store.visit seen id parent).1 = (store, seen.insert id) := by
  rw [visit, dif_neg hNew]
  split
  · rfl
  · rename_i hSome
    rw [hFind] at hSome
    cases hSome

/- A node gets its parent before its parts are visited. -/
theorem visit_of_node
    {node : Node}
    (hNew : id ∉ seen)
    (hFind : store.find? id = some node)
    (parent : Option NodeId) :
    (store.visit seen id parent).1 =
      ((store.setParent id parent).visitAll (seen.insert id)
        node.kind.children (some id)).1 := by
  rw [visit, dif_neg hNew]
  split
  · rename_i hNone
    rw [hFind] at hNone
    cases hNone
  · rename_i found hSome
    rw [hFind, Option.some.injEq] at hSome
    rw [hSome]

/- Visit the node of a link. -/
def follow
    (state : Store × NodeSet)
    (link : Link) :
    Store × NodeSet :=
  (state.1.visit state.2 link.id link.parent).1

/- The parts of a node are visited link by link. -/
theorem visitAll_eq_foldl
    (store : Store)
    (seen : NodeSet)
    (ids : List NodeId)
    (parent : Option NodeId) :
    (store.visitAll seen ids parent).1 =
      (ids.map fun id => ⟨id, parent⟩).foldl follow (store, seen) := by
  induction ids generalizing store seen with
  | nil =>
      rw [visitAll]
      rfl
  | cons id ids ih =>
      rw [visitAll, List.map_cons, List.foldl_cons]
      exact ih _ _

end Store

end ShapeTypes

------------------------------------------------------------
-- Pending Links and Recursion
------------------------------------------------------------

namespace ShapeTypes

namespace Store

variable {store current : Store} {seen : NodeSet}

/-
  Visiting one pending link after the other records the links
  that are found when they are worked off from the front.  The
  links are found by the kinds alone, so that parents recorded
  on the way do not matter.
-/
theorem foldl_follow
    (hSame : store.SameKinds current)
    (pending : List Link) :
    pending.foldl follow (current, seen) =
      (current.record (store.links seen pending).1,
        (store.links seen pending).2) := by
  fun_induction store.links seen pending generalizing current with
  | case1 seen => rfl
  | case2 seen next rest hSeen ih =>
      rw [List.foldl_cons, follow, visit_of_seen hSeen]
      exact ih hSame
  | case3 seen next rest hNew hStored below later final hLinks =>
      rename_i ih
      rcases mem_nodes_iff.1 (hSame.mem_nodes_iff.2 hStored) with
        ⟨node, hFind⟩
      have hBelow : node.kind.children = below := by
        have hChildren := hSame.childrenOf next.id
        rwa [Store.childrenOf, hFind] at hChildren
      have hMarked :
          store.SameKinds (current.setParent next.id next.parent) :=
        fun id =>
          (current.setParent_sameKinds next.id next.parent id).trans
            (hSame id)
      -- The parts come first, and what was pending behind them.
      rw [List.foldl_cons, follow, visit_of_node hNew hFind,
        visitAll_eq_foldl, hBelow, ← List.foldl_append, ih hMarked, hLinks]
      rfl
  | case4 seen next rest hNew hMissing ih =>
      have hFind : current.find? next.id = none := by
        rw [← hSame.mem_nodes_iff, mem_nodes_iff] at hMissing
        rwa [Option.eq_none_iff_forall_ne_some, ← not_exists]
      rw [List.foldl_cons, follow, visit_of_missing hNew hFind]
      exact ih hSame

/- One call does what a visit of its start does. -/
theorem value_linkFrom_eq_visit
    (store : Store)
    (start : NodeId)
    (seen : NodeSet) :
    (store.linkFrom start seen).value =
      (store.visit seen start none).1 := by
  rw [value_linkFrom]
  exact (foldl_follow (fun _ => rfl) [⟨start, none⟩]).symm

end Store

end ShapeTypes

------------------------------------------------------------
-- What Is Seen
------------------------------------------------------------

namespace ShapeTypes

namespace Store

variable {store : Store} {seen : NodeSet} {start id : NodeId}

/-
  An id is reached from a start by going from nodes to their
  parts, through ids outside a set only.
-/
def ReachesOutside
    (store : Store)
    (seen : NodeSet)
    (start id : NodeId) : Prop :=
  start ∉ seen ∧
    Relation.ReflTransGen
      (fun i child => child ∈ store.childrenOf i ∧ child ∉ seen) start id

namespace ReachesOutside

/- What is reached lies outside the set. -/
theorem not_mem
    (hReaches : store.ReachesOutside seen start id) :
    id ∉ seen := by
  rcases hReaches with ⟨hStart, hSteps⟩
  induction hSteps with
  | refl => exact hStart
  | tail _ hStep _ => exact hStep.2

/- Outside a larger set, no more is reached. -/
theorem of_insert
    {added : NodeId}
    (hReaches : store.ReachesOutside (seen.insert added) start id) :
    store.ReachesOutside seen start id := by
  have hSmaller : ∀ i, i ∉ seen.insert added → i ∉ seen :=
    fun i hNot hMem => hNot (NodeSet.mem_insert.2 (Or.inr hMem))
  refine ⟨hSmaller _ hReaches.1,
    Relation.ReflTransGen.mono ?_ _ _ hReaches.2⟩
  intro i child hStep
  exact ⟨hStep.1, hSmaller _ hStep.2⟩

/- What a part reaches, its owner reaches. -/
theorem of_part
    {part : NodeId}
    (hNew : start ∉ seen)
    (hPart : part ∈ store.childrenOf start)
    (hReaches : store.ReachesOutside seen part id) :
    store.ReachesOutside seen start id :=
  ⟨hNew, .head ⟨hPart, hReaches.1⟩ hReaches.2⟩

end ReachesOutside

/- All that is seen was seen before or is reached from a pending link. -/
theorem reachesOutside_of_mem_links
    (pending : List Link)
    (hSeen : id ∈ (store.links seen pending).2) :
    id ∈ seen ∨
      ∃ link ∈ pending, store.ReachesOutside seen link.id id := by
  fun_induction store.links seen pending with
  | case1 seen => exact Or.inl hSeen
  | case2 seen next rest hOld ih =>
      refine (ih hSeen).imp_right ?_
      rintro ⟨link, hLink, hReaches⟩
      exact ⟨link, List.mem_cons_of_mem next hLink, hReaches⟩
  | case3 seen next rest hNew hStored below later final hLinks ih =>
      rw [hLinks] at ih
      rcases ih hSeen with hOld | ⟨link, hLink, hReaches⟩
      · refine (NodeSet.mem_insert.1 hOld).symm.imp_right ?_
        rintro rfl
        exact ⟨next, List.mem_cons_self, hNew, .refl⟩
      · right
        rcases List.mem_append.1 hLink with hPart | hRest
        · rcases List.mem_map.1 hPart with ⟨part, hMem, rfl⟩
          exact ⟨next, List.mem_cons_self,
            .of_part hNew hMem hReaches.of_insert⟩
        · exact ⟨link, List.mem_cons_of_mem next hRest,
            hReaches.of_insert⟩
  | case4 seen next rest hNew hMissing ih =>
      rcases ih hSeen with hOld | ⟨link, hLink, hReaches⟩
      · refine (NodeSet.mem_insert.1 hOld).symm.imp_right ?_
        rintro rfl
        exact ⟨next, List.mem_cons_self, hNew, .refl⟩
      · exact Or.inr ⟨link, List.mem_cons_of_mem next hLink,
          hReaches.of_insert⟩

/- All that is reached from a pending link is seen. -/
theorem mem_links_of_reachesOutside
    {pending : List Link}
    {link : Link}
    (hLink : link ∈ pending)
    (hReaches : store.ReachesOutside seen link.id id) :
    id ∈ (store.links seen pending).2 := by
  have hVisits := store.links_visits seen pending
  rcases hReaches with ⟨hStart, hSteps⟩
  induction hSteps with
  | refl => exact hVisits.reached link hLink
  | @tail i child hSteps hStep ih =>
      -- A node with parts that is seen for the first time is visited.
      have hNew : i ∉ seen := ReachesOutside.not_mem ⟨hStart, hSteps⟩
      rcases hVisits.only i ih with hOld | hMissing | ⟨owner, hOwner, rfl⟩
      · exact absurd hOld hNew
      · exact absurd (mem_nodes_of_mem_childrenOf hStep.1) hMissing
      · exact hVisits.closed owner hOwner child hStep.1

/- A call adds just the ids that it reaches outside those seen. -/
theorem mem_linkFrom_iff_reachesOutside
    (store : Store)
    (start : NodeId)
    (seen : NodeSet)
    (id : NodeId) :
    id ∈ (store.linkFrom start seen).value.2 ↔
      id ∈ seen ∨ store.ReachesOutside seen start id := by
  rw [value_linkFrom]
  constructor
  · intro hSeen
    simpa using reachesOutside_of_mem_links [⟨start, none⟩] hSeen
  · rintro (hOld | hReaches)
    · exact (store.links_visits seen _).kept id hOld
    · exact mem_links_of_reachesOutside List.mem_cons_self hReaches

end Store

end ShapeTypes

------------------------------------------------------------
-- What Is Written
------------------------------------------------------------

namespace ShapeTypes

namespace Store

variable {store other : Store} {seen : NodeSet}

/-
  A store differs from another in the parents of its nodes at
  most.  The ids, their locations and kinds, the root and the
  last id are the same.
-/
structure SameButParents
    (store other : Store) : Prop where
  root : other.root = store.root
  lastId : other.lastId = store.lastId
  nodes :
    ∀ id, ∃ parent,
      other.find? id =
        (store.find? id).map fun node => { node with parent := parent }

/- Stores with the same nodes, root and last id are equal. -/
theorem eq_of_find?_eq
    (hRoot : other.root = store.root)
    (hLastId : other.lastId = store.lastId)
    (hFind : ∀ id, other.find? id = store.find? id) :
    other = store := by
  rcases store with ⟨nodes, root, lastId⟩
  rcases other with ⟨otherNodes, otherRoot, otherLastId⟩
  have hNodes : otherNodes = nodes := Std.ExtTreeMap.ext_getElem? hFind
  rw [Store.mk.injEq]
  exact ⟨hNodes, hRoot, hLastId⟩

theorem root_record
    (store : Store)
    (visited : List Link) :
    (store.record visited).root = store.root := by
  induction visited generalizing store with
  | nil => rfl
  | cons first visited ih =>
      rw [record, List.foldl_cons]
      exact ih (store.setParent first.id first.parent)

theorem record_sameButParents
    (store : Store)
    (visited : List Link) :
    store.SameButParents (store.record visited) := by
  refine ⟨store.root_record visited, store.lastId_record visited, ?_⟩
  intro id
  cases hFind : store.find? id with
  | none =>
      have hKind := store.record_sameKinds visited id
      rw [hFind, Option.map_none, Option.map_eq_none_iff] at hKind
      exact ⟨none, hKind⟩
  | some node =>
      rcases exists_find?_record visited hFind with ⟨parent, hKept⟩
      exact ⟨parent, hKept⟩

/- The links that are found depend on the kinds only. -/
theorem SameKinds.links_eq
    (hSame : store.SameKinds other)
    (seen : NodeSet)
    (pending : List Link) :
    other.links seen pending = store.links seen pending := by
  fun_induction store.links seen pending with
  | case1 seen => rw [links]
  | case2 seen next rest hSeen ih => rw [links, dif_pos hSeen, ih]
  | case3 seen next rest hNew hStored below later final hLinks ih =>
      rw [links, dif_neg hNew, dif_pos (hSame.mem_nodes_iff.2 hStored),
        hSame.childrenOf]
      dsimp only
      rw [ih, hLinks]
  | case4 seen next rest hNew hMissing ih =>
      rw [links, dif_neg hNew, dif_neg (mt hSame.mem_nodes_iff.1 hMissing),
        ih]

/- Links that are recorded once more change nothing. -/
theorem record_record
    {visited : List Link}
    (hNodup : (visited.map Link.id).Nodup) :
    (store.record visited).record visited = store.record visited := by
  apply eq_of_find?_eq (root_record _ _) (lastId_record _ _)
  intro id
  by_cases hVisited : id ∈ visited.map Link.id
  · rcases List.mem_map.1 hVisited with ⟨link, hLink, rfl⟩
    rw [find?_record hNodup hLink, find?_record hNodup hLink,
      Option.map_map]
    rfl
  · exact find?_record_of_not_mem hVisited

/- Writing the links below the root again changes nothing. -/
theorem link_link
    (store : Store) :
    store.link.value.link.value = store.link.value := by
  cases hRoot : store.root with
  | none =>
      have hLink : store.link.value = store := by
        simp [link, hRoot]
      rw [hLink, hLink]
  | some root =>
      have hLinks :=
        (store.record_sameKinds (store.links ∅ [⟨root, none⟩]).1).links_eq
          ∅ [⟨root, none⟩]
      have hNodup := (store.links_visits ∅ [⟨root, none⟩]).nodup
      rw [value_link hRoot, value_link ((root_record _ _).trans hRoot),
        hLinks, record_record hNodup]

/-
  Writing the links below a start is the recursive visit of
  the start, in any store and whatever was seen before.  It
  changes parents only, and sees just what can be reached
  outside the ids seen before.  Below the root, writing the
  links a second time changes nothing.
-/
theorem linkFrom_preOrder
    (store : Store)
    (start : NodeId)
    (seen : NodeSet) :
    (store.linkFrom start seen).value =
        (store.visit seen start none).1 ∧
      store.SameButParents (store.linkFrom start seen).value.1 ∧
      (∀ id,
        id ∈ (store.linkFrom start seen).value.2 ↔
          id ∈ seen ∨ store.ReachesOutside seen start id) ∧
      store.link.value.link.value = store.link.value := by
  refine ⟨store.value_linkFrom_eq_visit start seen, ?_,
    store.mem_linkFrom_iff_reachesOutside start seen, store.link_link⟩
  rw [value_linkFrom]
  exact store.record_sameButParents _

end Store

end ShapeTypes
