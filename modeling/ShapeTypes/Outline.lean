import ShapeTypes.Store.Basic

/-
  Outlines of syntax trees.

  An outline is a syntax tree whose nodes have no ids yet.
  The kind of a node refers to the parts of the node by
  their places, the first part being at place zero.  When an
  outline is stored, every part gets its id before the node
  that it belongs to, so ids follow the post-order.

  Key definitions include:
    * `ShapeTypes.Outline`
    * `ShapeTypes.Outline.listing`
    * `ShapeTypes.Outline.binding`
    * `ShapeTypes.Outline.write`
-/

namespace ShapeTypes

------------------------------------------------------------
-- Outlines
------------------------------------------------------------

/- A node with its span, above the outlines of its parts. -/
inductive Outline where
  | node (location : Location) (kind : Kind) (parts : List Outline)

namespace Outline

/- The span of the top node. -/
def location : Outline → Location
  | node location _ _ => location

/- The kind of the top node, by the places of its parts. -/
def kind : Outline → Kind
  | node _ kind _ => kind

/- The outlines below the top node. -/
def parts : Outline → List Outline
  | node _ _ parts => parts

------------------------------------------------------------
-- Common Layouts
------------------------------------------------------------

/- A node without parts. -/
def leaf
    (location : Location)
    (kind : Kind) :
    Outline :=
  node location kind []

/- A node whose kind lists its parts. -/
def listing
    (location : Location)
    (kind : List NodeId → Kind)
    (parts : List Outline) :
    Outline :=
  node location (kind (List.range parts.length)) parts

/- A name with a type and a value that may both be absent. -/
def binding
    (location : Location)
    (kind : NodeId → Option NodeId → Option NodeId → Kind)
    (name : Outline)
    (type value : Option Outline) :
    Outline :=
  node location
    (kind 0 (type.map fun _ => 1)
      (value.map fun _ => 1 + type.toList.length))
    (name :: (type.toList ++ value.toList))

/- The places of the parts that are there, from a place on. -/
def placesFrom : (place : Nat) → List (Option Outline) → List (Option NodeId)
  | _, [] => []
  | place, none :: rest => none :: placesFrom place rest
  | place, some _ :: rest => some place :: placesFrom (place + 1) rest

/- An array with elements and holes. -/
def array
    (location : Location)
    (elements : List (Option Outline)) :
    Outline :=
  node location (.arrayExpression (placesFrom 0 elements))
    (elements.filterMap id)

/- An arrow function, with the kind of its body. -/
def arrow
    (location : Location)
    (params : List Outline)
    (returnType : Option Outline)
    (body : Outline)
    (kind : NodeId → ArrowBody) :
    Outline :=
  node location
    (.arrowFunction (List.range params.length)
      (kind (params.length + returnType.toList.length))
      (returnType.map fun _ => params.length))
    (params ++ returnType.toList ++ [body])

/- A call with its arguments. -/
def call
    (location : Location)
    (callee : Outline)
    (arguments : List Outline) :
    Outline :=
  node location (.call 0 (List.range' 1 arguments.length))
    (callee :: arguments)

/-
  An uninterpreted node.  The parts in `abandoned` are stored
  before its own, and belong to no node.
-/
def remainder
    (location : Location)
    (kind : String)
    (abandoned own : List Outline) :
    Outline :=
  node location (.other kind (List.range' abandoned.length own.length))
    (abandoned ++ own)

------------------------------------------------------------
-- Storing
------------------------------------------------------------

mutual

/-
  Store an outline, and give the id of its top node.  Storing
  ends with the first node for which there is no id.
-/
def write : Outline → Store → Except StoreError NodeId × Store
  | node location kind parts, store =>
      match writeAll parts store with
      | (.error cause, store) => (.error cause, store)
      | (.ok ids, store) =>
          let ids := ids.toArray
          store.alloc location (kind.map fun place => ids.getD place 0)

/- Store some outlines in order, and give their ids. -/
def writeAll :
    List Outline → Store → Except StoreError (List NodeId) × Store
  | [], store => (.ok [], store)
  | part :: parts, store =>
      match write part store with
      | (.error cause, store) => (.error cause, store)
      | (.ok id, store) =>
          let (ids, store) := writeAll parts store
          (ids.map (id :: ·), store)

end

end Outline

end ShapeTypes
