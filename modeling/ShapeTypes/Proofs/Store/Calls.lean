import ShapeTypes.Proofs.Store.Forest

/-
  Stores after any calls.

  Nodes come in under the next id or under ids that the
  caller chooses.  Whatever the calls are and in whichever
  order, ids and nodes stay in step, so that the next id is
  free.  No call takes a node away, and what a call may
  change of a node depends on the call.

  Key definitions include:
    * `ShapeTypes.Store.Call`
    * `ShapeTypes.Store.run`
    * `ShapeTypes.Store.Consistent`
    * `ShapeTypes.Store.Keeps`

  Key theorems include:
    * `ShapeTypes.Store.run_consistent`
    * `ShapeTypes.Store.run_keeps`
    * `ShapeTypes.Store.run_calls_law`
-/

------------------------------------------------------------
-- Calls
------------------------------------------------------------

namespace ShapeTypes

namespace Store

/- A call that may change a store. -/
inductive Call where
  | alloc (location : Location) (kind : Kind)
  | add (node : Node)
  | replaceKind (id : NodeId) (kind : Kind)
  | setRoot (id : NodeId)
  | link
  | linkFrom (start : NodeId) (seen : NodeSet)

namespace Call

/- The store that a call leaves, whether or not it fails. -/
def applyTo
    (store : Store) :
    Call → Store
  | alloc location kind => (store.alloc location kind).2
  | add node => (store.add node).2
  | replaceKind id kind => (store.replaceKind id kind).2
  | setRoot id => store.setRoot id
  | link => store.link.value
  | linkFrom start seen => (store.linkFrom start seen).value.1

/- The call writes parent links. -/
def Links
    (call : Call) : Prop :=
  call = link ∨ ∃ start seen, call = linkFrom start seen

end Call

/- Make some calls in order. -/
def run
    (store : Store)
    (calls : List Call) :
    Store :=
  calls.foldl Call.applyTo store

end Store

end ShapeTypes

------------------------------------------------------------
-- What a Call Keeps
------------------------------------------------------------

namespace ShapeTypes

namespace Store

variable {store other : Store} {id : NodeId} {node : Node}

/-
  Every stored node is still there after some calls, with its
  id and its location.  Its kind is the same unless it was
  replaced, and its parent unless links were written.
-/
def Keeps
    (calls : List Call)
    (store other : Store) : Prop :=
  ∀ id node, store.find? id = some node →
    ∃ kept, other.find? id = some kept ∧
      kept.id = node.id ∧ kept.location = node.location ∧
      (kept.kind = node.kind ∨ Call.replaceKind id kept.kind ∈ calls) ∧
      (kept.parent = node.parent ∨ ∃ call ∈ calls, call.Links)

/- A store with the same nodes keeps them, whatever was called. -/
theorem keeps_of_find?_eq
    (calls : List Call)
    (hSame : ∀ id, other.find? id = store.find? id) :
    Keeps calls store other := by
  intro id node hFind
  exact ⟨node, (hSame id).trans hFind, rfl, rfl, Or.inl rfl, Or.inl rfl⟩

theorem put_keeps
    (calls : List Call)
    (hNew : node.id ∉ store.nodes) :
    Keeps calls store (store.put node) := by
  intro id old hFind
  have hNe : node.id ≠ id := by
    rintro rfl
    exact hNew (mem_nodes_iff.2 ⟨old, hFind⟩)
  refine ⟨old, ?_, rfl, rfl, Or.inl rfl, Or.inl rfl⟩
  rw [find?_put, if_neg hNe, hFind]

/- What adding a node can do. -/
theorem add_cases
    (store : Store)
    (node : Node) :
    ((∃ e, store.add node = (.error e, store)) ∧
        (node.id = 0 ∨ node.id ∈ store.nodes)) ∨
      (store.add node = (.ok (), store.put node) ∧
        node.id ≠ 0 ∧ node.id ∉ store.nodes) := by
  unfold add
  by_cases hZero : node.id = 0
  · rw [if_pos hZero]
    exact Or.inl ⟨⟨_, rfl⟩, Or.inl hZero⟩
  · rw [if_neg hZero]
    by_cases hTaken : node.id ∈ store.nodes
    · rw [if_pos hTaken]
      exact Or.inl ⟨⟨_, rfl⟩, Or.inr hTaken⟩
    · rw [if_neg hTaken]
      exact Or.inr ⟨rfl, hZero, hTaken⟩

theorem add_keeps
    (calls : List Call)
    (store : Store)
    (node : Node) :
    Keeps calls store (store.add node).2 := by
  rcases store.add_cases node with ⟨⟨e, hAdd⟩, -⟩ | ⟨hAdd, -, hNew⟩
  · rw [hAdd]
    exact keeps_of_find?_eq calls fun _ => rfl
  · rw [hAdd]
    exact put_keeps calls hNew

/- Recorded links change nothing but the parent of a node. -/
theorem exists_find?_record
    (visited : List Link)
    (hFind : store.find? id = some node) :
    ∃ parent,
      (store.record visited).find? id =
        some { node with parent := parent } := by
  induction visited generalizing store node with
  | nil => exact ⟨node.parent, hFind⟩
  | cons first visited ih =>
      rw [record, List.foldl_cons]
      by_cases hHere : first.id = id
      · have hFirst :
            (store.setParent first.id first.parent).find? id =
              some { node with parent := first.parent } := by
          rw [find?_setParent, if_pos hHere, hFind, Option.map_some]
        rcases ih hFirst with ⟨parent, hKept⟩
        exact ⟨parent, hKept⟩
      · apply ih
        rw [find?_setParent, if_neg hHere, hFind]

/- Recorded links give out no ids. -/
theorem lastId_record
    (store : Store)
    (visited : List Link) :
    (store.record visited).lastId = store.lastId := by
  induction visited generalizing store with
  | nil => rfl
  | cons first visited ih =>
      rw [record, List.foldl_cons]
      exact ih (store.setParent first.id first.parent)

/- Writing links below a start changes parents only. -/
theorem linkFrom_keeps
    {calls : List Call}
    (hLinks : ∃ call ∈ calls, call.Links)
    (store : Store)
    (start : NodeId)
    (seen : NodeSet) :
    Keeps calls store (store.linkFrom start seen).value.1 := by
  intro id node hFind
  rw [value_linkFrom]
  rcases exists_find?_record (store.links seen [⟨start, none⟩]).1 hFind with
    ⟨parent, hKept⟩
  exact ⟨_, hKept, rfl, rfl, Or.inl rfl, Or.inr hLinks⟩

/- Links below the root are those below a start, if there is a root. -/
theorem value_link_cases
    (store : Store) :
    store.link.value = store ∨
      ∃ root, store.link.value = (store.linkFrom root ∅).value.1 := by
  unfold link
  cases store.root with
  | none => exact Or.inl rfl
  | some root => exact Or.inr ⟨root, rfl⟩

/- One call keeps the nodes that are stored. -/
theorem applyTo_keeps
    (store : Store)
    (call : Call) :
    Keeps [call] store (call.applyTo store) := by
  cases call with
  | alloc location kind =>
      rw [Call.applyTo, alloc]
      split
      · exact keeps_of_find?_eq _ fun _ => rfl
      · exact add_keeps _ { store with lastId := store.lastId + 1 } _
  | add node => exact add_keeps _ store node
  | replaceKind changed kind =>
      intro id node hFind
      rw [Call.applyTo, find?_replaceKind]
      by_cases hHere : changed = id
      · subst hHere
        rw [if_pos rfl, hFind]
        exact ⟨_, rfl, rfl, rfl, Or.inr (by simp), Or.inl rfl⟩
      · rw [if_neg hHere]
        exact ⟨node, hFind, rfl, rfl, Or.inl rfl, Or.inl rfl⟩
  | setRoot root => exact keeps_of_find?_eq _ fun _ => rfl
  | link =>
      rw [Call.applyTo]
      rcases store.value_link_cases with hLink | ⟨root, hLink⟩
      · rw [hLink]
        exact keeps_of_find?_eq _ fun _ => rfl
      · rw [hLink]
        exact linkFrom_keeps ⟨.link, by simp, Or.inl rfl⟩ store root ∅
  | linkFrom start seen =>
      exact linkFrom_keeps
        ⟨.linkFrom start seen, by simp, Or.inr ⟨start, seen, rfl⟩⟩
        store start seen

/- What is kept by some calls and by those behind them is kept by all. -/
theorem Keeps.append
    {final : Store}
    {calls later : List Call}
    (hFirst : Keeps calls store other)
    (hLater : Keeps later other final) :
    Keeps (calls ++ later) store final := by
  intro id node hFind
  rcases hFirst id node hFind with
    ⟨kept, hKept, hId, hLocation, hKind, hParent⟩
  rcases hLater id kept hKept with
    ⟨last, hLast, hLastId, hLastLocation, hLastKind, hLastParent⟩
  refine ⟨last, hLast, hLastId.trans hId,
    hLastLocation.trans hLocation, ?_, ?_⟩
  · rcases hLastKind with hSame | hReplaced
    · rw [hSame]
      exact hKind.imp_right (List.mem_append_left later)
    · exact Or.inr (List.mem_append_right calls hReplaced)
  · rcases hLastParent with hSame | ⟨call, hCall, hLinks⟩
    · rw [hSame]
      refine hParent.imp_right ?_
      rintro ⟨call, hCall, hLinks⟩
      exact ⟨call, List.mem_append_left later hCall, hLinks⟩
    · exact Or.inr ⟨call, List.mem_append_right calls hCall, hLinks⟩

theorem run_keeps
    (store : Store)
    (calls : List Call) :
    Keeps calls store (store.run calls) := by
  induction calls generalizing store with
  | nil => exact keeps_of_find?_eq [] fun _ => rfl
  | cons call calls ih =>
      rw [run, List.foldl_cons]
      exact (applyTo_keeps store call).append (ih (call.applyTo store))

end Store

end ShapeTypes

------------------------------------------------------------
-- Ids and Nodes in Step
------------------------------------------------------------

namespace ShapeTypes

namespace Store

variable {store other : Store} {node : Node}

/-
  Every node is stored under its own id, which is not zero
  and not beyond the last id given out.  The last id is that
  of a node, once there is one.
-/
structure Consistent
    (store : Store) : Prop where
  keyed : ∀ id node, store.find? id = some node → node.id = id
  positive : ∀ id ∈ store.nodes, id ≠ 0
  counted : store.Counted
  last : store.lastId = 0 ∨ store.lastId ∈ store.nodes

theorem empty_consistent :
    empty.Consistent where
  keyed := by simp [empty, find?]
  positive := by simp [empty]
  counted := counted_empty
  last := Or.inl rfl

namespace Consistent

/- A new node under an id that is not zero. -/
theorem put
    (hConsistent : store.Consistent)
    (hZero : node.id ≠ 0) :
    (store.put node).Consistent := by
  have hMem :
      ∀ id,
        id ∈ (store.put node).nodes ↔
          id = node.id ∨ id ∈ store.nodes := by
    intro id
    rw [Store.put, Std.ExtTreeMap.mem_insert,
      Std.LawfulEqCmp.compare_eq_iff_eq, eq_comm]
  have hLast : (store.put node).lastId = max store.lastId node.id := rfl
  refine ⟨?_, ?_, ?_, ?_⟩
  · intro id found hFind
    rw [find?_put] at hFind
    split at hFind
    · rename_i hHere
      rw [← Option.some.inj hFind, hHere]
    · exact hConsistent.keyed id found hFind
  · intro id hId
    rcases (hMem id).1 hId with rfl | hOld
    · exact hZero
    · exact hConsistent.positive id hOld
  · intro id hId
    rw [hLast]
    rcases (hMem id).1 hId with rfl | hOld
    · exact Nat.le_max_right _ _
    · exact Nat.le_trans (hConsistent.counted id hOld) (Nat.le_max_left _ _)
  · rw [hLast, hMem]
    rcases Nat.le_total store.lastId node.id with hLe | hLe
    · rw [Nat.max_eq_right hLe]
      exact Or.inr (Or.inl rfl)
    · rw [Nat.max_eq_left hLe]
      exact hConsistent.last.imp_right Or.inr

/- A store with the same ids, whose nodes were kept. -/
theorem of_keeps
    {calls : List Call}
    (hConsistent : store.Consistent)
    (hKeeps : Keeps calls store other)
    (hMem : ∀ id, id ∈ other.nodes ↔ id ∈ store.nodes)
    (hLast : other.lastId = store.lastId) :
    other.Consistent := by
  refine ⟨?_, ?_, ?_, ?_⟩
  · intro id found hFind
    have hStored : id ∈ store.nodes :=
      (hMem id).1 (mem_nodes_iff.2 ⟨found, hFind⟩)
    rcases mem_nodes_iff.1 hStored with ⟨old, hOld⟩
    rcases hKeeps id old hOld with ⟨kept, hKept, hId, -⟩
    rw [hFind, Option.some.injEq] at hKept
    rw [hKept, hId]
    exact hConsistent.keyed id old hOld
  · intro id hId
    exact hConsistent.positive id ((hMem id).1 hId)
  · intro id hId
    rw [hLast]
    exact hConsistent.counted id ((hMem id).1 hId)
  · rw [hLast, hMem]
    exact hConsistent.last

/- Links leave ids and nodes in step. -/
theorem linkFrom
    {calls : List Call}
    {start : NodeId}
    {seen : NodeSet}
    (hConsistent : store.Consistent)
    (hKeeps :
      Keeps calls store (store.linkFrom start seen).value.1) :
    (store.linkFrom start seen).value.1.Consistent := by
  apply hConsistent.of_keeps hKeeps
  · intro id
    exact (store.linkFrom_records start seen).kinds.mem_nodes_iff
  · rw [value_linkFrom]
    exact lastId_record store _

end Consistent

/- One call leaves ids and nodes in step. -/
theorem applyTo_consistent
    (hConsistent : store.Consistent)
    (call : Call) :
    (call.applyTo store).Consistent := by
  have hKeeps := applyTo_keeps store call
  cases call with
  | alloc location kind =>
      rw [Call.applyTo]
      rcases store.alloc_cases location kind with
        ⟨hAlloc, -⟩ | ⟨cause, left, hAlloc, hLeft⟩
      · rw [hAlloc]
        exact hConsistent.put (Nat.succ_ne_zero store.lastId)
      · rw [hAlloc]
        rw [(hLeft hConsistent.counted).2.1]
        exact hConsistent
  | add node =>
      rw [Call.applyTo]
      rcases store.add_cases node with ⟨⟨e, hAdd⟩, -⟩ | ⟨hAdd, hZero, -⟩
      · rw [hAdd]
        exact hConsistent
      · rw [hAdd]
        exact hConsistent.put hZero
  | replaceKind id kind =>
      apply hConsistent.of_keeps hKeeps
      · intro i
        exact Std.ExtTreeMap.mem_modify
      · rfl
  | setRoot id =>
      apply hConsistent.of_keeps hKeeps
      · intro i
        rfl
      · rfl
  | link =>
      rw [Call.applyTo] at hKeeps ⊢
      rcases store.value_link_cases with hLink | ⟨root, hLink⟩
      · rw [hLink]
        exact hConsistent
      · rw [hLink] at hKeeps ⊢
        exact hConsistent.linkFrom hKeeps
  | linkFrom start seen => exact hConsistent.linkFrom hKeeps

theorem run_consistent
    (hConsistent : store.Consistent)
    (calls : List Call) :
    (store.run calls).Consistent := by
  induction calls generalizing store with
  | nil => exact hConsistent
  | cons call calls ih =>
      rw [run, List.foldl_cons]
      exact ih (applyTo_consistent hConsistent call)

/-
  After any calls, as long as no node has the largest id there
  can be, every node is stored under its own id, which is not
  zero and not beyond the counter.  A new node is stored under
  an id larger than all others.  A node that cannot be added
  leaves the store as it is.  And whatever calls follow, the
  nodes are kept.
-/
theorem run_calls_law
    (calls : List Call)
    (hIds : ∀ id ∈ (empty.run calls).nodes, id < maxId) :
    let store := empty.run calls
    (∀ id node, store.find? id = some node →
        node.id = id ∧ id ≠ 0 ∧ id ≤ store.lastId) ∧
      (∀ location kind,
        ∃ id,
          store.alloc location kind =
              (.ok id,
                store.put { id := id, location := location, kind := kind }) ∧
            ∀ other ∈ store.nodes, other < id) ∧
      (∀ node e,
        (store.add node).1 = .error e → (store.add node).2 = store) ∧
      ∀ later, Keeps later store (store.run later) := by
  intro store
  have hConsistent : store.Consistent :=
    run_consistent empty_consistent calls
  refine ⟨?_, ?_, ?_, store.run_keeps⟩
  · intro id node hFind
    have hStored : id ∈ store.nodes := mem_nodes_iff.2 ⟨node, hFind⟩
    exact ⟨hConsistent.keyed id node hFind,
      hConsistent.positive id hStored, hConsistent.counted id hStored⟩
  · intro location kind
    have hLeft : store.lastId < maxId := by
      rcases hConsistent.last with hZero | hStored
      · rw [hZero]
        decide
      · exact hIds _ hStored
    rcases store.alloc_cases location kind with
      ⟨hAlloc, -⟩ | ⟨cause, left, -, hFull⟩
    · refine ⟨store.lastId + 1, hAlloc, ?_⟩
      intro other hOther
      exact Nat.lt_succ_of_le (hConsistent.counted other hOther)
    · exact absurd hLeft (Nat.not_lt.2 (hFull hConsistent.counted).2.2)
  · intro node e hError
    rcases store.add_cases node with ⟨⟨_, hAdd⟩, -⟩ | ⟨hAdd, -⟩
    · rw [hAdd]
    · rw [hAdd] at hError
      cases hError

/-
  Nodes with chosen ids and with the next id in turn.  Two of
  the nodes are refused.
-/
def mixed : List Call :=
  [.add ⟨7, { }, .identifier "a", some 3⟩,
    .alloc { } (.expressionStatement 7),
    .add ⟨0, { }, .identifier "a", none⟩,
    .add ⟨7, { }, .identifier "b", none⟩,
    .setRoot 8,
    .link,
    .add ⟨2, { }, .unary .not 8, none⟩,
    .replaceKind 7 (.arrayExpression [some 2, some 5]),
    .linkFrom 2 ∅]

/- The next node gets an id behind all of them. -/
theorem run_calls_law_mixed :
    (empty.run mixed).ids = [2, 7, 8] ∧
      (∃ id,
        (empty.run mixed).alloc { } (.identifier "b") =
            (.ok id,
              (empty.run mixed).put
                { id := id, location := { }, kind := .identifier "b" }) ∧
          ∀ other ∈ (empty.run mixed).nodes, other < id) ∧
      Keeps [.replaceKind 2 (.identifier "b")] (empty.run mixed)
        ((empty.run mixed).run [.replaceKind 2 (.identifier "b")]) := by
  have hIds : (empty.run mixed).ids = [2, 7, 8] := by decide +kernel
  have hBelow : ∀ id ∈ (empty.run mixed).nodes, id < maxId := by
    intro id hStored
    rw [← Std.ExtTreeMap.mem_keys] at hStored
    change id ∈ (empty.run mixed).ids at hStored
    rw [hIds] at hStored
    have hLe : id ≤ 8 := by grind
    exact Nat.lt_of_le_of_lt hLe (by decide)
  rcases run_calls_law mixed hBelow with ⟨-, hAlloc, -, hKeeps⟩
  exact ⟨hIds, hAlloc { } (.identifier "b"), hKeeps _⟩

end Store

end ShapeTypes
