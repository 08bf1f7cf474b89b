import ShapeTypes.Proofs.Inference.Renaming
import ShapeTypes.Proofs.Store.PostOrder

/-
  Inference depends on what a node reaches.

  Names of keys, parameters and callees are read from nodes
  that are never visited, but these too are parts of nodes
  below the start.  So two stores that hold the same kinds
  there give the same type, whatever else they hold.

  Key definitions include:
    * `ShapeTypes.Store.SameBelow`

  Key theorems include:
    * `ShapeTypes.Store.Reaches.inside`
    * `ShapeTypes.Store.SameBelow.renames`
    * `ShapeTypes.Engine.infer_sameBelow`
-/

------------------------------------------------------------
-- Stores That Are the Same Below a Node
------------------------------------------------------------

namespace ShapeTypes

namespace Store

variable {store other : Store} {top i : NodeId}

/-
  Every id that a node reaches has the same kind in both
  stores, or is missing in both.
-/
def SameBelow
    (store other : Store)
    (top : NodeId) : Prop :=
  ∀ i, store.Reaches top i →
    (other.find? i).map Node.kind = (store.find? i).map Node.kind

/- What a node reaches lies in every set with the parts of its nodes. -/
theorem Reaches.inside
    (inside : NodeId → Prop)
    (hTop : inside top)
    (hClosed :
      ∀ i, inside i → ∀ child ∈ store.childrenOf i, inside child)
    (hReaches : store.Reaches top i) :
    inside i := by
  induction hReaches with
  | refl => exact hTop
  | tail _ hChild ih => exact hClosed _ ih _ hChild

/- Stores with the same nodes are the same below each of them. -/
theorem SameKinds.sameBelow
    (hSame : store.SameKinds other)
    (top : NodeId) :
    store.SameBelow other top :=
  fun i _ => hSame i

/- Parent links below the root change no kind. -/
theorem link_sameKinds
    (store : Store) :
    store.SameKinds store.link.value := by
  cases hRoot : store.root with
  | none =>
      intro i
      simp [link, hRoot]
  | some root =>
      rw [value_link hRoot]
      exact store.record_sameKinds _

/- No id below the node has to be renamed. -/
theorem SameBelow.renames
    (hSame : store.SameBelow other top) :
    store.Renames other id (store.Reaches top) where
  injective := fun _ _ hEq => hEq
  kind := by
    intro i hReaches
    have hMap : (fun node : Node => node.kind.map id) = Node.kind :=
      funext fun node => node.kind.map_id
    rw [hMap]
    exact hSame i hReaches
  closed := fun hReaches hChild => hReaches.tail hChild

end Store

end ShapeTypes

------------------------------------------------------------
-- Types of Such Stores
------------------------------------------------------------

namespace ShapeTypes

namespace Engine

/- A node has the same type where all that it reaches is the same. -/
theorem infer_eq_of_sameBelow
    {store other : Store}
    {top : NodeId}
    (engine : Engine)
    (hSame : store.SameBelow other top) :
    engine.infer other top = engine.infer store top :=
  engine.infer_rename hSame.renames .refl

/-
  The type of a node depends on the kinds that it reaches and
  on nothing else: not on other nodes, spans, parents, the root
  or the ids that were given out.  So parent links never change
  a type, be they below the root or below any start.
-/
theorem infer_sameBelow
    (engine : Engine) :
    (∀ (store other : Store) (top : NodeId),
      store.SameBelow other top →
        engine.infer other top = engine.infer store top) ∧
      ∀ (store : Store) (top : NodeId),
        engine.infer store.link.value top = engine.infer store top ∧
          ∀ start seen,
            engine.infer (store.linkFrom start seen).value.1 top =
              engine.infer store top := by
  refine ⟨fun _ _ _ hSame => engine.infer_eq_of_sameBelow hSame, ?_⟩
  intro store top
  refine ⟨?_, fun start seen => ?_⟩
  · exact engine.infer_eq_of_sameBelow (store.link_sameKinds.sameBelow top)
  · have hKinds := (store.linkFrom_records start seen).kinds
    exact engine.infer_eq_of_sameBelow (hKinds.sameBelow top)

/-
  An object with a function that finds elements, under a key
  that is there twice, and with itself under another key.  The
  last property is missing.  All nodes have one span and one
  parent.
-/
def circular
    (location : Location)
    (parent : Option NodeId) :
    Store :=
  [(1, Kind.identifier "document"),
    (2, .identifier "getElementById"),
    (3, .member 1 2 false),
    (4, .call 3 []),
    (5, .identifier "name"),
    (6, .parameter 5 none none),
    (7, .arrowFunction [6] (.expression 4) none),
    (8, .identifier "find"),
    (9, .property 8 7 false false false),
    (10, .literal (.string "self") "'self'"),
    (11, .property 10 12 false false false),
    (12, .objectExpression [9, 11, 9, 13])].foldl
      (fun store node => store.put ⟨node.1, location, node.2, parent⟩)
      Store.empty

/- The same object among other nodes, which refer to it. -/
def surrounded : Store :=
  ((circular ⟨1, 2, 3, 4, 5, 6⟩ (some 20)).put
    { id := 20, location := { }, kind := .call 12 [20, 4] }).setRoot 20

/- The type of the object: it says nothing of itself. -/
def circularType : Descriptor :=
  let find :=
    Descriptor.function [("name", .unknown)] (.named "HTMLElement | null")
  .record [("find", find), ("self", .unknown), ("find", find)]

/-
  The object has its type among the other nodes too, and after
  parent links are written from node 9.
-/
theorem infer_sameBelow_circular :
    (circular { } none).SameBelow surrounded 12 ∧
      ({ } : Engine).infer surrounded 12 =
        ({ } : Engine).infer (circular { } none) 12 ∧
      ({ } : Engine).infer (surrounded.linkFrom 9 ∅).value.1 12 =
        ({ } : Engine).infer surrounded 12 ∧
      ({ } : Engine).infer (circular { } none) 12 = circularType := by
  have hClosed :
      ∀ i ∈ List.range 14, ∀ child ∈ (circular { } none).childrenOf i,
        child ∈ List.range 14 := by
    decide +kernel
  have hKinds :
      ∀ i ∈ List.range 14,
        (surrounded.find? i).map Node.kind =
          ((circular { } none).find? i).map Node.kind := by
    decide +kernel
  have hSame : (circular { } none).SameBelow surrounded 12 := by
    intro i hReaches
    exact hKinds i
      (hReaches.inside (· ∈ List.range 14) (by decide) hClosed)
  have hLocal := infer_sameBelow { }
  exact ⟨hSame, hLocal.1 _ _ 12 hSame, (hLocal.2 surrounded 12).2 9 ∅,
    by decide +kernel⟩

end Engine

end ShapeTypes
