import Mathlib.Data.List.Chain
import Mathlib.Data.List.Sort
import ShapeTypes.Proofs.Store.Links

/-
  The parent links of any store form a forest.

  The store may be any graph: nodes can be shared, lead back
  to themselves or be missing, and there may be parents from
  before.  Links are written below several starts in turn,
  and ids that were seen once are never visited again.

  Key definitions include:
    * `ShapeTypes.Store.visitOrder`
    * `ShapeTypes.Store.linkEach`
    * `ShapeTypes.Store.Rooted`

  Key theorems include:
    * `ShapeTypes.Store.links_owned`
    * `ShapeTypes.Store.climb_rooted`
    * `ShapeTypes.Store.linkEach_rooted`
    * `ShapeTypes.Store.linkEach_forest`
-/

------------------------------------------------------------
-- What Links Leave Alone
------------------------------------------------------------

namespace ShapeTypes

namespace Store

variable {store other : Store} {id : NodeId}

theorem ids_pairwise
    (store : Store) :
    store.ids.Pairwise (· < ·) := by
  refine Std.ExtTreeMap.ordered_keys.imp ?_
  intro a b hLt
  exact Nat.compare_eq_lt.1 hLt

/- Two stores have the same nodes, whatever their parents are. -/
def SameKinds
    (store other : Store) : Prop :=
  ∀ id, (other.find? id).map Node.kind = (store.find? id).map Node.kind

namespace SameKinds

theorem mem_nodes_iff
    (hSame : store.SameKinds other) :
    id ∈ other.nodes ↔ id ∈ store.nodes := by
  have hIsSome := congrArg Option.isSome (hSame id)
  rw [Option.isSome_map, Option.isSome_map] at hIsSome
  rw [Store.mem_nodes_iff, Store.mem_nodes_iff,
    ← Option.isSome_iff_exists, ← Option.isSome_iff_exists, hIsSome]

theorem ids
    (hSame : store.SameKinds other) :
    other.ids = store.ids := by
  apply other.ids_pairwise.eq_of_mem_iff store.ids_pairwise
  intro id
  rw [mem_ids_iff, mem_ids_iff, hSame.mem_nodes_iff]

theorem childrenOf
    (hSame : store.SameKinds other)
    (id : NodeId) :
    other.childrenOf id = store.childrenOf id := by
  have hKind := hSame id
  unfold Store.childrenOf
  cases hOther : other.find? id with
  | none =>
      rw [hOther, Option.map_none, eq_comm, Option.map_eq_none_iff] at hKind
      rw [hKind]
  | some node =>
      rw [hOther, Option.map_some, eq_comm, Option.map_eq_some_iff] at hKind
      rcases hKind with ⟨old, hOld, hEq⟩
      rw [hOld]
      exact congrArg Kind.children hEq.symm

end SameKinds

theorem record_sameKinds
    (store : Store)
    (visited : List Link) :
    store.SameKinds (store.record visited) := by
  induction visited generalizing store with
  | nil => exact fun id => rfl
  | cons link visited ih =>
      intro id
      rw [record, List.foldl_cons]
      refine (ih _ id).trans ?_
      rw [find?_setParent]
      split
      · rw [Option.map_map]
        rfl
      · rfl

end Store

end ShapeTypes

------------------------------------------------------------
-- One Call
------------------------------------------------------------

namespace ShapeTypes

namespace Store

variable {store : Store} {seen : NodeSet}

/- The ids that are visited below a start, in their order. -/
def visitOrder
    (store : Store)
    (start : NodeId)
    (seen : NodeSet) :
    List NodeId :=
  (store.links seen [⟨start, none⟩]).1.map Link.id

/- Whatever is visited is seen in the end. -/
theorem Visits.mem_final
    {pending visited : List Link}
    {final : NodeSet}
    {link : Link}
    (hVisits : store.Visits seen pending visited final)
    (hLink : link ∈ visited) :
    link.id ∈ final := by
  rcases hVisits.listed link hLink with hPending | ⟨owner, hOwner, -, hChild⟩
  · exact hVisits.reached link hPending
  · exact hVisits.closed owner hOwner _ hChild

/-
  A node that is visited was pending from the start, or is a
  part of a node that was visited before it.
-/
theorem links_owned
    (store : Store)
    (seen : NodeSet)
    (pending : List Link) :
    ∀ {earlier later : List Link} {link : Link},
      (store.links seen pending).1 = earlier ++ link :: later →
        link ∈ pending ∨
          ∃ owner ∈ earlier,
            link.parent = some owner.id ∧
              link.id ∈ store.childrenOf owner.id := by
  fun_induction store.links seen pending with
  | case1 seen =>
      intro earlier later link hSplit
      simp at hSplit
  | case2 seen next rest hSeen ih =>
      intro earlier later link hSplit
      exact (ih hSplit).imp_left (List.mem_cons_of_mem next)
  | case3 seen next rest hNew hStored below behind final hLinks =>
      rename_i ih
      intro earlier later link hSplit
      rw [hLinks] at ih
      cases earlier with
      | nil =>
          rw [List.nil_append, List.cons.injEq] at hSplit
          exact Or.inl (by simp [hSplit.1])
      | cons first earlier =>
          rw [List.cons_append, List.cons.injEq] at hSplit
          rcases hSplit with ⟨rfl, hSplit⟩
          rcases ih hSplit with hPending | ⟨owner, hOwner, hOwned⟩
          · rcases List.mem_append.1 hPending with hChild | hRest
            · rcases List.mem_map.1 hChild with ⟨child, hMem, rfl⟩
              exact Or.inr ⟨next, by simp, rfl, hMem⟩
            · exact Or.inl (List.mem_cons_of_mem next hRest)
          · exact Or.inr ⟨owner, List.mem_cons_of_mem next hOwner, hOwned⟩
  | case4 seen next rest hNew hMissing ih =>
      intro earlier later link hSplit
      exact (ih hSplit).imp_left (List.mem_cons_of_mem next)

/- Of the nodes that a call visits, only the start has no owner. -/
theorem links_start_or_owned
    {start : NodeId}
    {earlier later : List Link}
    {link : Link}
    (hSplit :
      (store.links seen [⟨start, none⟩]).1 = earlier ++ link :: later) :
    (link = ⟨start, none⟩ ∧ earlier = []) ∨
      (link.id ≠ start ∧
        ∃ owner ∈ earlier,
          link.parent = some owner.id ∧
            link.id ∈ store.childrenOf owner.id) := by
  cases earlier with
  | nil =>
      rcases links_owned _ _ _ hSplit with hStart | ⟨owner, hOwner, -⟩
      · exact Or.inl ⟨List.mem_singleton.1 hStart, rfl⟩
      · simp at hOwner
  | cons first earlier =>
      -- The first of all is the start, so no later one is.
      have hHead :
          (store.links seen [⟨start, none⟩]).1 =
            [] ++ first :: (earlier ++ link :: later) :=
        hSplit
      have hFirst : first = ⟨start, none⟩ := by
        rcases links_owned _ _ _ hHead with hStart | ⟨_, hOwner, _⟩
        · exact List.mem_singleton.1 hStart
        · simp at hOwner
      have hNe : link.id ≠ start := by
        have hNodup := (store.links_visits seen [⟨start, none⟩]).nodup
        rw [hSplit, hFirst] at hNodup
        intro hEq
        simp [hEq] at hNodup
      rcases links_owned _ _ _ hSplit with hStart | hOwned
      · rw [List.mem_singleton.1 hStart] at hNe
        exact absurd rfl hNe
      · exact Or.inr ⟨hNe, hOwned⟩

end Store

end ShapeTypes

------------------------------------------------------------
-- Ancestors
------------------------------------------------------------

namespace ShapeTypes

namespace Store

variable {store linked : Store} {seen : NodeSet} {start : NodeId}

/- The recorded parent of a node lists the node. -/
def IsParent
    (store : Store)
    (child parent : NodeId) : Prop :=
  store.parent? child = some parent ∧ child ∈ store.childrenOf parent

/- The parents of a store are those of the links of one call. -/
structure Records
    (linked store : Store)
    (links : List Link) : Prop where
  kinds : store.SameKinds linked
  parents : ∀ link ∈ links, linked.parent? link.id = link.parent

/-
  The way up from a visited node leads through nodes that
  were visited before it, each the parent of the one below,
  and ends at the start.
-/
theorem climb_rooted
    {earlier later : List Link}
    {link : Link}
    {passed : NodeSet}
    (hRecords : linked.Records store (store.links seen [⟨start, none⟩]).1)
    (hSplit :
      (store.links seen [⟨start, none⟩]).1 = earlier ++ link :: later)
    (hPassed : ∀ before ∈ earlier, before.id ∉ passed) :
    (linked.climb passed link.id).reverse.Sublist (earlier.map Link.id) ∧
      (link.id :: linked.climb passed link.id).IsChain linked.IsParent ∧
        (link.id :: linked.climb passed link.id).getLast? = some start := by
  -- The owner was visited before, so fewer nodes are before it.
  induction hLength : earlier.length using Nat.strong_induction_on
    generalizing earlier link later passed with
  | h n ih =>
      have hVisits := store.links_visits seen [⟨start, none⟩]
      have hParent := hRecords.parents link (by simp [hSplit])
      rcases links_start_or_owned hSplit with
        ⟨rfl, -⟩ | ⟨-, owner, hOwner, hOwned, hChild⟩
      · have hTop : linked.climb passed start = [] := by
          rw [climb, hParent]
        simp [hTop]
      · rcases List.append_of_mem hOwner with ⟨before, between, rfl⟩
        have hOwnerStored : owner.id ∈ linked.nodes := by
          rw [hRecords.kinds.mem_nodes_iff]
          exact (hVisits.new owner (by simp [hSplit])).2
        have hClimb :
            linked.climb passed link.id =
              owner.id :: linked.climb (passed.insert owner.id) owner.id := by
          rw [climb, hParent, hOwned]
          simp [hPassed owner (by simp), hOwnerStored]
        have hNew :
            ∀ first ∈ before, first.id ∉ passed.insert owner.id := by
          intro first hFirst hMem
          rcases NodeSet.mem_insert.1 hMem with hEq | hMem
          · have hNodup := hVisits.nodup
            rw [hSplit, List.append_assoc, List.map_append] at hNodup
            exact (List.nodup_append.1 hNodup).2.2 first.id
              (List.mem_map_of_mem hFirst) owner.id (by simp) hEq
          · exact hPassed first (by simp [hFirst]) hMem
        have hOwnerSplit :
            (store.links seen [⟨start, none⟩]).1 =
              before ++ owner :: (between ++ link :: later) := by
          rw [hSplit, List.append_assoc, List.cons_append]
        rcases ih before.length (by simp [← hLength]) hOwnerSplit hNew rfl with
          ⟨hSublist, hChain, hLast⟩
        rw [hClimb]
        refine ⟨?_, ?_, ?_⟩
        · rw [List.reverse_cons, List.map_append, List.map_cons]
          exact hSublist.append
            (List.singleton_sublist.2 (List.mem_cons_self))
        · apply List.IsChain.cons_cons
          · refine ⟨hParent.trans hOwned, ?_⟩
            rwa [hRecords.kinds.childrenOf]
          · exact hChain
        · rw [List.getLast?_cons_cons]
          exact hLast

/-
  How a node that a call visits hangs below its start.  The
  start has no parent.  Any other node has as its parent a
  stored node that was visited before it, and is one of the
  parts of that node.  The ancestors lead up to the start
  without a repetition.
-/
structure Rooted
    (linked : Store)
    (order : List NodeId)
    (start id : NodeId) : Prop where
  visited : id ∈ order
  once : order.Nodup
  top : id = start → linked.parent? id = none
  owned :
    id ≠ start →
      ∃ owner, linked.IsParent id owner ∧
        owner ∈ linked.nodes ∧ [owner, id].Sublist order
  nodup : (id :: linked.ancestors id).Nodup
  chain : (id :: linked.ancestors id).IsChain linked.IsParent
  last : (id :: linked.ancestors id).getLast? = some start

/- Every node that a call visits hangs below the start. -/
theorem Records.rooted
    {id : NodeId}
    (hRecords : linked.Records store (store.links seen [⟨start, none⟩]).1)
    (hVisited : id ∈ store.visitOrder start seen) :
    linked.Rooted (store.visitOrder start seen) start id := by
  have hVisits := store.links_visits seen [⟨start, none⟩]
  have hNodup := hVisits.nodup
  rcases List.mem_map.1 hVisited with ⟨link, hLink, rfl⟩
  rcases List.append_of_mem hLink with ⟨earlier, later, hSplit⟩
  have hOrder :
      store.visitOrder start seen =
        earlier.map Link.id ++ link.id :: later.map Link.id := by
    rw [visitOrder, hSplit, List.map_append, List.map_cons]
  have hParent := hRecords.parents link hLink
  have hBefore : ∀ before ∈ earlier, before.id ≠ link.id := by
    intro before hMem hEq
    rw [hSplit, List.map_append, List.map_cons] at hNodup
    exact (List.nodup_append.1 hNodup).2.2 before.id
      (List.mem_map_of_mem hMem) link.id (by simp) hEq
  have hPassed :
      ∀ before ∈ earlier, before.id ∉ Std.ExtTreeSet.ofList [link.id] := by
    intro before hMem
    rw [Std.ExtTreeSet.mem_ofList]
    simpa using hBefore before hMem
  rcases climb_rooted hRecords hSplit hPassed with
    ⟨hSublist, hChain, hLast⟩
  refine ⟨hVisited, hNodup, ?_, ?_, ?_, hChain, hLast⟩
  · intro hStart
    rcases links_start_or_owned hSplit with ⟨rfl, -⟩ | ⟨hNe, -⟩
    · exact hParent
    · exact absurd hStart hNe
  · intro hNe
    rcases links_start_or_owned hSplit with
      ⟨rfl, -⟩ | ⟨-, owner, hOwner, hOwned, hChild⟩
    · exact absurd rfl hNe
    · refine ⟨owner.id, ⟨hParent.trans hOwned, ?_⟩, ?_, ?_⟩
      · rwa [hRecords.kinds.childrenOf]
      · rw [hRecords.kinds.mem_nodes_iff]
        exact (hVisits.new owner (by simp [hSplit, hOwner])).2
      · rw [hOrder]
        exact (List.singleton_sublist.2 (List.mem_map_of_mem hOwner)).append
          (List.singleton_sublist.2 List.mem_cons_self)
  · have hUp :
        (link.id :: linked.ancestors link.id).reverse.Sublist
          (store.visitOrder start seen) := by
      rw [List.reverse_cons, hOrder]
      exact hSublist.append (List.singleton_sublist.2 List.mem_cons_self)
    exact List.nodup_reverse.1 (hUp.nodup hNodup)

end Store

end ShapeTypes

------------------------------------------------------------
-- Sequences of Calls
------------------------------------------------------------

namespace ShapeTypes

namespace Store

variable {store : Store} {seen : NodeSet} {starts : List NodeId} {id : NodeId}

/-
  Write the links below some starts in turn.  What one call
  has seen is skipped by those behind it.
-/
def linkEach
    (store : Store)
    (seen : NodeSet) :
    List NodeId → Store × NodeSet
  | [] => (store, seen)
  | start :: starts =>
      linkEach (store.linkFrom start seen).value.1
        (store.linkFrom start seen).value.2 starts

/- What one call writes and sees. -/
theorem value_linkFrom
    (store : Store)
    (start : NodeId)
    (seen : NodeSet) :
    (store.linkFrom start seen).value =
      (store.record (store.links seen [⟨start, none⟩]).1,
        (store.links seen [⟨start, none⟩]).2) := by
  simp [linkFrom]

/- One call changes the nodes that it visits only. -/
theorem find?_linkFrom
    (hNot : id ∉ store.visitOrder start seen) :
    (store.linkFrom start seen).value.1.find? id = store.find? id := by
  rw [value_linkFrom]
  exact find?_record_of_not_mem hNot

/- One call records the links of its walk. -/
theorem linkFrom_records
    (store : Store)
    (start : NodeId)
    (seen : NodeSet) :
    (store.linkFrom start seen).value.1.Records store
      (store.links seen [⟨start, none⟩]).1 := by
  have hVisits := store.links_visits seen [⟨start, none⟩]
  rw [value_linkFrom]
  refine ⟨record_sameKinds _ _, ?_⟩
  intro link hLink
  rcases mem_nodes_iff.1 (hVisits.new link hLink).2 with ⟨node, hNode⟩
  rw [parent?, find?_record hVisits.nodup hLink, hNode]
  rfl

/- What one call sees: what was seen, and what it visits or misses. -/
theorem mem_linkFrom_iff
    (hStored : id ∈ store.nodes) :
    id ∈ (store.linkFrom start seen).value.2 ↔
      id ∈ seen ∨ id ∈ store.visitOrder start seen := by
  have hVisits := store.links_visits seen [⟨start, none⟩]
  rw [value_linkFrom]
  constructor
  · intro hMem
    rcases hVisits.only id hMem with hSeen | hMissing | ⟨link, hLink, rfl⟩
    · exact Or.inl hSeen
    · exact absurd hStored hMissing
    · exact Or.inr (List.mem_map_of_mem hLink)
  · rintro (hSeen | hVisited)
    · exact hVisits.kept id hSeen
    · rcases List.mem_map.1 hVisited with ⟨link, hLink, rfl⟩
      exact hVisits.mem_final hLink

/- No call visits what was seen before. -/
theorem not_mem_visitOrder
    (hSeen : id ∈ seen) :
    id ∉ store.visitOrder start seen := by
  intro hVisited
  rcases List.mem_map.1 hVisited with ⟨link, hLink, rfl⟩
  exact ((store.links_visits seen _).new link hLink).1 hSeen

/- Calls change parents only. -/
theorem linkEach_sameKinds
    (store : Store)
    (seen : NodeSet)
    (starts : List NodeId) :
    store.SameKinds (store.linkEach seen starts).1 := by
  induction starts generalizing store seen with
  | nil => exact fun id => rfl
  | cons start starts ih =>
      intro id
      exact (ih _ _ id).trans
        ((store.linkFrom_records start seen).kinds id)

/- What was seen is left as it is, and stays seen. -/
theorem linkEach_of_seen
    (hStored : id ∈ store.nodes)
    (hSeen : id ∈ seen) :
    (store.linkEach seen starts).1.find? id = store.find? id ∧
      id ∈ (store.linkEach seen starts).2 := by
  induction starts generalizing store seen with
  | nil => exact ⟨rfl, hSeen⟩
  | cons start starts ih =>
      have hKinds := (store.linkFrom_records start seen).kinds
      rcases ih (hKinds.mem_nodes_iff.2 hStored)
          ((mem_linkFrom_iff hStored).2 (Or.inl hSeen)) with
        ⟨hFind, hFinal⟩
      exact ⟨hFind.trans (find?_linkFrom (not_mem_visitOrder hSeen)), hFinal⟩

/- What is never seen is left as it is. -/
theorem linkEach_of_unseen
    (hStored : id ∈ store.nodes)
    (hUnseen : id ∉ (store.linkEach seen starts).2) :
    (store.linkEach seen starts).1.find? id = store.find? id := by
  induction starts generalizing store seen with
  | nil => rfl
  | cons start starts ih =>
      have hKinds := (store.linkFrom_records start seen).kinds
      have hStill := hKinds.mem_nodes_iff.2 hStored
      refine (ih hStill hUnseen).trans (find?_linkFrom ?_)
      intro hVisited
      apply hUnseen
      exact (linkEach_of_seen hStill
        ((mem_linkFrom_iff hStored).2 (Or.inr hVisited))).2

/-
  A node that the calls come to see hangs below the start of
  the first call that visits it.
-/
theorem linkEach_rooted
    (hStored : id ∈ store.nodes)
    (hNew : id ∉ seen)
    (hSeen : id ∈ (store.linkEach seen starts).2) :
    ∃ before start after,
      starts = before ++ start :: after ∧
        id ∉ (store.linkEach seen before).2 ∧
        (store.linkEach seen starts).1.Rooted
          ((store.linkEach seen before).1.visitOrder start
            (store.linkEach seen before).2)
          start id := by
  induction starts generalizing store seen with
  | nil => exact absurd hSeen hNew
  | cons start starts ih =>
      have hFirst := store.linkFrom_records start seen
      have hStill := hFirst.kinds.mem_nodes_iff.2 hStored
      by_cases hVisited : id ∈ store.visitOrder start seen
      · -- This call is the first; those behind it change nothing here.
        refine ⟨[], start, starts, rfl, hNew, ?_⟩
        apply Records.rooted ?_ hVisited
        refine ⟨linkEach_sameKinds store seen (start :: starts), ?_⟩
        intro link hLink
        have hLinkStored :=
          ((store.links_visits seen _).new link hLink).2
        have hLinkSeen : link.id ∈ (store.linkFrom start seen).value.2 :=
          (mem_linkFrom_iff hLinkStored).2
            (Or.inr (List.mem_map_of_mem hLink))
        have hKept :
            (store.linkEach seen (start :: starts)).1.find? link.id =
              (store.linkFrom start seen).value.1.find? link.id :=
          (linkEach_of_seen (hFirst.kinds.mem_nodes_iff.2 hLinkStored)
            hLinkSeen).1
        rw [parent?, hKept]
        exact hFirst.parents link hLink
      · have hLater : id ∉ (store.linkFrom start seen).value.2 := by
          rw [mem_linkFrom_iff hStored, not_or]
          exact ⟨hNew, hVisited⟩
        rcases ih hStill hLater hSeen with
          ⟨before, first, after, rfl, hNotBefore, hRooted⟩
        exact ⟨start :: before, first, after, rfl, hNotBefore, hRooted⟩

/- The links below the root are those of one call. -/
theorem link_rooted
    {root : NodeId}
    (hRoot : store.root = some root)
    (hStored : id ∈ store.nodes)
    (hSeen : id ∈ (store.linkFrom root ∅).value.2) :
    store.link.value.Rooted (store.visitOrder root ∅) root id := by
  have hLink : store.link.value = (store.linkFrom root ∅).value.1 := by
    simp [link, hRoot]
  rw [hLink]
  apply (store.linkFrom_records root ∅).rooted
  rcases (mem_linkFrom_iff hStored).1 hSeen with hNone | hVisited
  · simp at hNone
  · exact hVisited

/-
  The links that are written below any starts of any store
  form a forest.  A stored node that is seen hangs below the
  start of the first call that sees it, and a node that is
  never seen is left as it is.  Below the root, all hangs
  from the root.
-/
theorem linkEach_forest
    (store : Store)
    (starts : List NodeId) :
    (∀ id ∈ store.nodes,
      (id ∈ (store.linkEach ∅ starts).2 →
        ∃ before start after,
          starts = before ++ start :: after ∧
            id ∉ (store.linkEach ∅ before).2 ∧
            (store.linkEach ∅ starts).1.Rooted
              ((store.linkEach ∅ before).1.visitOrder start
                (store.linkEach ∅ before).2)
              start id) ∧
        (id ∉ (store.linkEach ∅ starts).2 →
          (store.linkEach ∅ starts).1.find? id = store.find? id)) ∧
      ∀ root, store.root = some root →
        ∀ id ∈ store.nodes,
          id ∈ (store.linkFrom root ∅).value.2 →
            store.link.value.Rooted (store.visitOrder root ∅) root id := by
  constructor
  · intro id hStored
    exact ⟨linkEach_rooted hStored (by simp), linkEach_of_unseen hStored⟩
  · intro root hRoot id hStored hSeen
    exact link_rooted hRoot hStored hSeen

/-
  A store with a shared node, two circles, a missing part and
  parents from before.
-/
def tangled : Store :=
  [({ id := 1, location := { }, kind := .expressionStatement 2,
      parent := some 4 } : Node),
    { id := 2, location := { }, kind := .binary .add 3 1,
      parent := some 2 },
    { id := 3, location := { }, kind := .arrayExpression [some 3, some 9] },
    { id := 4, location := { }, kind := .call 3 [2], parent := some 1 },
    { id := 5, location := { }, kind := .unary .not 4,
      parent := some 5 }].foldl put empty |>.setRoot 4

/-
  Node 3 is reached from node 2 in the second call, and keeps
  this parent in the third.  Node 5 is never reached.
-/
theorem linkEach_forest_tangled :
    (∃ before start after,
      [9, 1, 4] = before ++ start :: after ∧
        3 ∉ (tangled.linkEach ∅ before).2 ∧
        (tangled.linkEach ∅ [9, 1, 4]).1.Rooted
          ((tangled.linkEach ∅ before).1.visitOrder start
            (tangled.linkEach ∅ before).2)
          start 3) ∧
      (tangled.linkEach ∅ [9, 1, 4]).1.ancestors 3 = [2, 1] ∧
      (tangled.linkEach ∅ [9, 1, 4]).1.find? 5 = tangled.find? 5 ∧
      tangled.link.value.Rooted [4, 3, 2, 1] 4 1 := by
  have hForest := tangled.linkEach_forest [9, 1, 4]
  have hOrder : tangled.visitOrder 4 ∅ = [4, 3, 2, 1] := by decide +kernel
  refine ⟨?_, by decide +kernel, ?_, ?_⟩
  · exact (hForest.1 3 (by decide +kernel)).1 (by decide +kernel)
  · exact (hForest.1 5 (by decide +kernel)).2 (by decide +kernel)
  · rw [← hOrder]
    exact hForest.2 4 rfl 1 (by decide +kernel) (by decide +kernel)

end Store

end ShapeTypes
