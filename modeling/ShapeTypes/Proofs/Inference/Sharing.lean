import Mathlib.Data.List.Chain
import Mathlib.Data.Nat.Find
import ShapeTypes.Proofs.Inference.Table

/-
  Inference where nodes are shared.

  A node that is reached several times is worked out once, at
  the depth where it is reached first.  If all paths down from
  the start are within the limit on depth, every reference
  still gets the type that it has by the table alone.

  Key definitions include:
    * `ShapeTypes.Store.Path`
    * `ShapeTypes.Store.Shallow`
    * `ShapeTypes.Store.height`

  Key theorems include:
    * `ShapeTypes.Store.Shallow.height_lt`
    * `ShapeTypes.Store.Shallow.rankedIn`
    * `ShapeTypes.Engine.infer_eq_iff_of_shallow`
-/

------------------------------------------------------------
-- Paths
------------------------------------------------------------

namespace ShapeTypes

namespace Store

variable {store : Store} {limit : Nat} {id child : NodeId}

/- A path leads from a node to one of its parts, and so on. -/
def Path
    (store : Store)
    (id : NodeId)
    (path : List NodeId) : Prop :=
  (id :: path).IsChain fun i child => child ∈ store.childrenOf i

/-
  No path from a node has more steps than a limit.  So no node
  below leads back to itself, since a circle has paths of any
  length.
-/
def Shallow
    (store : Store)
    (limit : Nat)
    (id : NodeId) : Prop :=
  ∀ path, store.Path id path → path.length ≤ limit

open Classical in
/- The number of steps of the longest path within a limit. -/
noncomputable def height
    (store : Store)
    (limit : Nat)
    (id : NodeId) :
    Nat :=
  Nat.findGreatest
    (fun n => ∃ path, store.Path id path ∧ path.length = n) limit

/- A path to a part goes on from the node. -/
theorem Path.cons
    {path : List NodeId}
    (hPath : store.Path child path)
    (hChild : child ∈ store.childrenOf id) :
    store.Path id (child :: path) :=
  List.IsChain.cons_cons hChild hPath

/- Some path is as long as the height. -/
theorem exists_path_height
    (store : Store)
    (limit : Nat)
    (id : NodeId) :
    ∃ path, store.Path id path ∧
      path.length = store.height limit id := by
  classical
  refine Nat.findGreatest_spec
    (P := fun n => ∃ path, store.Path id path ∧ path.length = n)
    (Nat.zero_le limit) ?_
  exact ⟨[], List.isChain_singleton id, rfl⟩

theorem height_le
    (store : Store)
    (limit : Nat)
    (id : NodeId) :
    store.height limit id ≤ limit := by
  classical
  exact Nat.findGreatest_le limit

/- Where every part has a lower rank, ranks bound the paths. -/
theorem shallow_of_rank
    (rank : NodeId → Nat)
    (hRank :
      ∀ i ∈ store.ids, ∀ child ∈ store.childrenOf i, rank child < rank i)
    (id : NodeId) :
    store.Shallow (rank id) id := by
  intro path hPath
  induction path generalizing id with
  | nil => exact Nat.zero_le _
  | cons child path ih =>
      rcases List.isChain_cons_cons.1 hPath with ⟨hChild, hRest⟩
      have hStored : id ∈ store.ids :=
        mem_ids_iff.2 (mem_nodes_of_mem_childrenOf hChild)
      have hLess := hRank id hStored child hChild
      have hLength := ih child hRest
      rw [List.length_cons]
      omega

namespace Shallow

/- The parts of a shallow node are shallow. -/
theorem part
    (hShallow : store.Shallow limit id)
    (hChild : child ∈ store.childrenOf id) :
    store.Shallow limit child := by
  intro path hPath
  have hLength := hShallow _ (hPath.cons hChild)
  rw [List.length_cons] at hLength
  omega

/- The parts of a shallow node have less height. -/
theorem height_lt
    (hShallow : store.Shallow limit id)
    (hChild : child ∈ store.childrenOf id) :
    store.height limit child < store.height limit id := by
  classical
  rcases store.exists_path_height limit child with ⟨path, hPath, hLength⟩
  have hLonger := hPath.cons hChild
  rw [← hLength]
  exact Nat.le_findGreatest (hShallow _ hLonger) ⟨_, hLonger, rfl⟩

/- A shallow node consults shallow nodes of less height. -/
theorem consulted
    {kind : Kind}
    (hShallow : store.Shallow limit id)
    (hKind : store.kind? id = some kind)
    (hChild : child ∈ store.consulted kind) :
    store.Shallow limit child ∧
      store.height limit child < store.height limit id := by
  rcases Option.map_eq_some_iff.1 hKind with ⟨node, hFind, rfl⟩
  have hParts : store.childrenOf id = node.kind.children := by
    rw [childrenOf, hFind]
  rcases consulted_cases hChild with
    hPart | ⟨property, hProperty, hPart⟩
  · rw [← hParts] at hPart
    exact ⟨hShallow.part hPart, hShallow.height_lt hPart⟩
  · rw [← hParts] at hProperty
    have hBetween := hShallow.part hProperty
    exact ⟨hBetween.part hPart,
      Nat.lt_trans (hBetween.height_lt hPart)
        (hShallow.height_lt hProperty)⟩

/- The names of a path are no more than the height of the callee. -/
theorem length_le_of_calleePath
    {names : List String}
    (hShallow : store.Shallow limit id)
    (hPath : store.CalleePath id names) :
    names.length ≤ store.height limit id + 1 := by
  induction hPath with
  | identifier _ => simp
  | @property id object property name names hKind _ _ ih =>
      have hObject : object ∈ store.childrenOf id := by
        rcases Option.map_eq_some_iff.1 hKind with ⟨node, hFind, hMember⟩
        simp [childrenOf, hFind, hMember, Kind.children]
      have hNames := ih (hShallow.part hObject)
      have hLess := hShallow.height_lt hObject
      rw [List.length_append, List.length_singleton]
      omega

/- Heights are ranks of shallow nodes. -/
theorem rankedIn
    (engine : Engine)
    (store : Store) :
    engine.RankedIn store (store.Shallow engine.options.maxDepth)
      (store.height engine.options.maxDepth) := by
  constructor
  · intro i kind hShallow hKind child hChild
    exact (hShallow.consulted hKind hChild).1
  · intro i kind hShallow hKind child hChild
    exact (hShallow.consulted hKind hChild).2
  · rintro i kind hShallow hKind callee arguments rfl names hPath
    have hCallee : callee ∈ store.childrenOf i := by
      rcases Option.map_eq_some_iff.1 hKind with ⟨node, hFind, hCall⟩
      simp [childrenOf, hFind, hCall, Kind.children]
    have hNames := (hShallow.part hCallee).length_le_of_calleePath hPath
    have hLess := hShallow.height_lt hCallee
    have hLimit := store.height_le engine.options.maxDepth i
    omega

end Shallow

end Store

end ShapeTypes

------------------------------------------------------------
-- Types of Shared Nodes
------------------------------------------------------------

namespace ShapeTypes

namespace Engine

/-
  If every path down from a node is within the limit on depth,
  inference gives the type that the node has by the table
  alone, with the type of every reference worked out anew.
  Parts may be shared in any way, and may be missing.
-/
theorem infer_eq_iff_of_shallow
    {engine : Engine}
    {store : Store}
    {id : NodeId}
    (hShallow : store.Shallow engine.options.maxDepth id)
    (type : Descriptor) :
    engine.infer store id = type ↔ engine.HasType store id type :=
  (Store.Shallow.rankedIn engine store).infer_eq_iff hShallow
    (store.height_le engine.options.maxDepth id)

/-
  An object with a sum and an array under one key.  The sum is
  an element of the array twice, the array is both branches of
  a choice, and its last element is missing.
-/
def shared : Store :=
  [({ id := 1, location := { },
      kind := .literal (.number "1") "1" } : Node),
    { id := 2, location := { },
      kind := .literal (.string "a") "'a'" },
    { id := 3, location := { }, kind := .binary .add 1 2 },
    { id := 4, location := { },
      kind := .arrayExpression [some 3, none, some 3, some 1, some 0] },
    { id := 5, location := { }, kind := .conditional 1 4 4 },
    { id := 6, location := { }, kind := .identifier "k" },
    { id := 7, location := { },
      kind := .property 6 5 false false false },
    { id := 8, location := { },
      kind := .property 6 3 false false false },
    { id := 9, location := { },
      kind := .objectExpression [8, 7] }].foldl Store.put Store.empty

/- An engine that goes down no further than the shared nodes need. -/
def tight : Engine :=
  { options := { maxDepth := 5 } }

/- The type of the object: the sum stands in both fields. -/
def sharedType : Descriptor :=
  let sum := Descriptor.union [.primitive .number, .primitive .string]
  .record
    [("k", sum), ("k", .genericArray [sum, .primitive .number, .unknown])]

/- The sum is finished at depth 1 and met again at depth 3. -/
theorem infer_eq_iff_of_shallow_shared :
    shared.Shallow tight.options.maxDepth 9 ∧
      tight.infer shared 9 = sharedType ∧
      tight.HasType shared 9 sharedType := by
  have hShallow : shared.Shallow tight.options.maxDepth 9 :=
    Store.shallow_of_rank
      (fun i => [0, 0, 0, 1, 2, 3, 0, 4, 2, 5].getD i 0)
      (by decide +kernel) 9
  have hType : tight.infer shared 9 = sharedType := by
    decide +kernel
  exact ⟨hShallow, hType, (infer_eq_iff_of_shallow hShallow _).1 hType⟩

end Engine

end ShapeTypes
