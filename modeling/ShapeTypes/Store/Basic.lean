import ShapeTypes.Node.Kind
import Std.Data.ExtTreeMap
import Std.Data.ExtTreeSet

/-
  The store of nodes, by id.

  A store may hold any graph of nodes: parts can be shared,
  can lead back to the node itself, or can be missing.

  Key definitions include:
    * `ShapeTypes.Store`
    * `ShapeTypes.Store.alloc`
    * `ShapeTypes.Store.add`
    * `ShapeTypes.Store.replaceKind`
    * `ShapeTypes.Store.topLevelStatements`
    * `ShapeTypes.Store.ancestors`

  Key theorems include:
    * `ShapeTypes.Store.unseen_insert_lt`
    * `ShapeTypes.Store.unseenParts_insert_add_le`
-/

namespace ShapeTypes

------------------------------------------------------------
-- Stores
------------------------------------------------------------

/- A set of node ids. -/
abbrev NodeSet :=
  Std.ExtTreeSet NodeId

/- What is in a set after an id is added. -/
theorem NodeSet.mem_insert
    {seen : NodeSet}
    {added id : NodeId} :
    id ∈ seen.insert added ↔ id = added ∨ id ∈ seen := by
  rw [Std.ExtTreeSet.mem_insert, Std.LawfulEqCmp.compare_eq_iff_eq,
    eq_comm]

/-
  Nodes by id, the root of their tree, and the largest id
  that was ever given out.
-/
structure Store where
  nodes : Std.ExtTreeMap NodeId Node := ∅
  root : Option NodeId := none
  lastId : Nat := 0

/- Why a node cannot be stored. -/
inductive StoreError where
  | zeroId
  | duplicateId (id : NodeId)
  | idsExhausted
deriving DecidableEq, Repr

/- The text that reports a failure. -/
def StoreError.message : StoreError → String
  | zeroId => "Node ID must be non-zero"
  | duplicateId id =>
      "Node with ID " ++ toString id ++ " already exists in the arena"
  | idsExhausted => "attempt to add with overflow"

namespace Store

/- The store without nodes. -/
def empty : Store :=
  { }

------------------------------------------------------------
-- Reading
------------------------------------------------------------

/- The node with an id. -/
def find?
    (store : Store)
    (id : NodeId) :
    Option Node :=
  store.nodes[id]?

/- The ids of all nodes, in increasing order. -/
def ids
    (store : Store) :
    List NodeId :=
  store.nodes.keys

/- All nodes, in the order of their ids. -/
def toList
    (store : Store) :
    List Node :=
  store.nodes.values

/- The number of nodes. -/
def size
    (store : Store) :
    Nat :=
  store.nodes.size

/- The recorded parent of a node. -/
def parent?
    (store : Store)
    (id : NodeId) :
    Option NodeId :=
  (store.find? id).bind (·.parent)

/- The parts of a node; a missing node has none. -/
def childrenOf
    (store : Store)
    (id : NodeId) :
    List NodeId :=
  match store.find? id with
  | some node => node.kind.children
  | none => []

/- The nodes that satisfy a test, in the order of their ids. -/
def filter
    (store : Store)
    (test : Node → Bool) :
    List Node :=
  store.toList.filter test

/- The statements directly under a program at the root. -/
def topLevelStatements
    (store : Store) :
    List NodeId :=
  match store.root.bind store.find? with
  | some ⟨_, _, .program body, _⟩ => body
  | _ => []

------------------------------------------------------------
-- Writing
------------------------------------------------------------

/- The largest id there can be. -/
def maxId : NodeId :=
  Nat.pow 2 32 - 1

/- Store a node under its own id, whatever was there. -/
def put
    (store : Store)
    (node : Node) :
    Store where
  nodes := store.nodes.insert node.id node
  root := store.root
  lastId := max store.lastId node.id

/-
  Store a node under an id of its own, which must be free.
  Gives also the store that is left, be it after a failure.
-/
def add
    (store : Store)
    (node : Node) :
    Except StoreError Unit × Store :=
  if node.id = 0 then
    (.error .zeroId, store)
  else if node.id ∈ store.nodes then
    (.error (.duplicateId node.id), store)
  else
    (.ok (), store.put node)

/-
  Store a new node under the next id, if ids are left.  The
  id counts as given out before the node is added.
-/
def alloc
    (store : Store)
    (location : Location)
    (kind : Kind) :
    Except StoreError NodeId × Store :=
  if maxId ≤ store.lastId then
    (.error .idsExhausted, store)
  else
    let id := store.lastId + 1
    let added :=
      { store with lastId := id }.add
        { id := id, location := location, kind := kind }
    (added.1.map fun _ => id, added.2)

/- Give an existing node another kind.  Says whether there was one. -/
def replaceKind
    (store : Store)
    (id : NodeId)
    (kind : Kind) :
    Bool × Store :=
  (decide (id ∈ store.nodes),
   { store with
     nodes := store.nodes.modify id fun node => { node with kind := kind } })

/- Record the parent of an existing node. -/
def setParent
    (store : Store)
    (id : NodeId)
    (parent : Option NodeId) :
    Store :=
  { store with
    nodes := store.nodes.modify id fun node => { node with parent := parent } }

/- Make an id the root; it need not be stored. -/
def setRoot
    (store : Store)
    (id : NodeId) :
    Store :=
  { store with root := some id }

/- An id is stored when there is a node with it. -/
theorem mem_nodes_iff
    {store : Store}
    {id : NodeId} :
    id ∈ store.nodes ↔ ∃ node, store.find? id = some node := by
  rw [Std.ExtTreeMap.mem_iff_isSome_getElem?, Option.isSome_iff_exists,
    find?]

/- Only a stored node has parts. -/
theorem mem_nodes_of_mem_childrenOf
    {store : Store}
    {id child : NodeId}
    (hChild : child ∈ store.childrenOf id) :
    id ∈ store.nodes := by
  unfold childrenOf at hChild
  split at hChild
  · rename_i node hFind
    exact mem_nodes_iff.2 ⟨node, hFind⟩
  · cases hChild

theorem mem_ids_iff
    {store : Store}
    {id : NodeId} :
    id ∈ store.ids ↔ id ∈ store.nodes :=
  Std.ExtTreeMap.mem_keys

theorem find?_put
    (store : Store)
    (node : Node)
    (id : NodeId) :
    (store.put node).find? id =
      if node.id = id then some node else store.find? id := by
  simp [find?, put, Std.ExtTreeMap.getElem?_insert]

theorem find?_setParent
    (store : Store)
    (id : NodeId)
    (parent : Option NodeId)
    (i : NodeId) :
    (store.setParent id parent).find? i =
      if id = i then
        (store.find? i).map fun node => { node with parent := parent }
      else
        store.find? i := by
  by_cases hEq : id = i
  · subst hEq
    simp [find?, setParent]
  · simp [find?, setParent, Std.ExtTreeMap.getElem?_modify, hEq]

theorem find?_replaceKind
    (store : Store)
    (id : NodeId)
    (kind : Kind)
    (i : NodeId) :
    (store.replaceKind id kind).2.find? i =
      if id = i then
        (store.find? i).map fun node => { node with kind := kind }
      else
        store.find? i := by
  by_cases hEq : id = i
  · subst hEq
    simp [find?, replaceKind]
  · simp [find?, replaceKind, Std.ExtTreeMap.getElem?_modify, hEq]

------------------------------------------------------------
-- Ids That Are Not Yet Seen
------------------------------------------------------------

/- The stored ids outside a set, in increasing order. -/
def unseenIds
    (store : Store)
    (seen : NodeSet) :
    List NodeId :=
  store.ids.filter fun id => !seen.contains id

/- The number of stored ids outside a set. -/
def unseen
    (store : Store)
    (seen : NodeSet) :
    Nat :=
  (store.unseenIds seen).length

/- The number of parts that the nodes outside a set refer to. -/
def unseenParts
    (store : Store)
    (seen : NodeSet) :
    Nat :=
  ((store.unseenIds seen).flatMap store.childrenOf).length

theorem unseen_empty
    (store : Store) :
    store.unseen ∅ = store.size := by
  have hAll : store.unseenIds ∅ = store.ids := by
    simp [unseenIds]
  rw [unseen, hAll, ids, Std.ExtTreeMap.length_keys, size]

/- Seeing an id takes it out of the unseen ids. -/
theorem unseenIds_insert
    (store : Store)
    (seen : NodeSet)
    (id : NodeId) :
    store.unseenIds (seen.insert id) =
      (store.unseenIds seen).filter fun i => !decide (id = i) := by
  simp [unseenIds, List.filter_filter, Std.ExtTreeSet.contains_insert,
    Bool.not_or, Bool.beq_eq_decide_eq]

private theorem length_flatMap_filter_le
    (p : NodeId → Bool)
    (parts : NodeId → List NodeId)
    (ids : List NodeId) :
    ((ids.filter p).flatMap parts).length ≤
      (ids.flatMap parts).length := by
  induction ids with
  | nil => exact Nat.le_refl _
  | cons id ids ih =>
      rw [List.flatMap_cons, List.length_append]
      cases hKept : p id with
      | false =>
          rw [List.filter_cons_of_neg (by simp [hKept])]
          exact Nat.le_trans ih (Nat.le_add_left _ _)
      | true =>
          rw [List.filter_cons_of_pos hKept, List.flatMap_cons,
            List.length_append]
          exact Nat.add_le_add_left ih _

/- The parts of a stored id are gone when the id is seen. -/
private theorem length_unseenIds_insert_add_le
    {store : Store}
    {seen : NodeSet}
    {id : NodeId}
    (parts : NodeId → List NodeId)
    (hMem : id ∈ store.nodes)
    (hNew : id ∉ seen) :
    ((store.unseenIds (seen.insert id)).flatMap parts).length +
        (parts id).length ≤
      ((store.unseenIds seen).flatMap parts).length := by
  have hUnseen : id ∈ store.unseenIds seen := by
    simpa [unseenIds, ids, Bool.eq_false_iff] using And.intro hMem hNew
  -- The unseen ids fall into those before `id`, `id`, and those after it.
  rcases List.append_of_mem hUnseen with ⟨before, after, hSplit⟩
  have hBefore :=
    length_flatMap_filter_le (fun i => !decide (id = i)) parts before
  have hAfter :=
    length_flatMap_filter_le (fun i => !decide (id = i)) parts after
  rw [unseenIds_insert, hSplit, List.filter_append,
    List.filter_cons_of_neg (by simp)]
  simp only [List.flatMap_append, List.flatMap_cons, List.length_append]
  omega

/- Seeing a stored id leaves fewer ids unseen. -/
theorem unseen_insert_lt
    {store : Store}
    {seen : NodeSet}
    {id : NodeId}
    (hMem : id ∈ store.nodes)
    (hNew : id ∉ seen) :
    store.unseen (seen.insert id) < store.unseen seen := by
  have hLe := length_unseenIds_insert_add_le (fun i => [i]) hMem hNew
  simpa [unseen, Nat.succ_le_iff] using hLe

/- Seeing a stored id takes its parts away. -/
theorem unseenParts_insert_add_le
    {store : Store}
    {seen : NodeSet}
    {id : NodeId}
    (hMem : id ∈ store.nodes)
    (hNew : id ∉ seen) :
    store.unseenParts (seen.insert id) + (store.childrenOf id).length ≤
      store.unseenParts seen :=
  length_unseenIds_insert_add_le _ hMem hNew

/- Seeing an id never adds parts. -/
theorem unseenParts_insert_le
    (store : Store)
    (seen : NodeSet)
    (id : NodeId) :
    store.unseenParts (seen.insert id) ≤ store.unseenParts seen := by
  rw [unseenParts, unseenIds_insert]
  exact length_flatMap_filter_le _ _ _

------------------------------------------------------------
-- Ancestors
------------------------------------------------------------

/-
  The parents above a node, from the closest on, up to the
  first that is in `seen`.
-/
def climb
    (store : Store)
    (seen : NodeSet)
    (id : NodeId) :
    List NodeId :=
  match store.parent? id with
  | none => []
  | some parent =>
      if _hSeen : parent ∈ seen then
        []
      else if _hStored : parent ∈ store.nodes then
        parent :: climb store (seen.insert parent) parent
      else
        [parent]
termination_by store.unseen seen
decreasing_by exact unseen_insert_lt _hStored _hSeen

/-
  The ancestors of a node, from the closest on.  They stop
  before an id would repeat, so links that run in a circle
  are harmless.
-/
def ancestors
    (store : Store)
    (id : NodeId) :
    List NodeId :=
  climb store (Std.ExtTreeSet.ofList [id]) id

end Store

end ShapeTypes
