import ShapeTypes.Log
import ShapeTypes.Store.Basic

/-
  Parent links.

  The nodes below a start are visited in pre-order, each id
  once.  A node gets as its parent the node from which it
  was first reached, and the start gets none.

  Key definitions include:
    * `ShapeTypes.Store.Link`
    * `ShapeTypes.Store.links`
    * `ShapeTypes.Store.linkFrom`
    * `ShapeTypes.Store.link`
-/

namespace ShapeTypes

namespace Store

------------------------------------------------------------
-- The Order of Visits
------------------------------------------------------------

/- A node that is to be visited, and the node it was reached from. -/
structure Link where
  id : NodeId
  parent : Option NodeId
deriving DecidableEq, Repr

/-
  The links of the nodes that are visited when `pending` is
  worked off from the front, and the ids seen in the end.
  The parts of a node are visited before what was pending.
-/
def links
    (store : Store)
    (seen : NodeSet)
    (pending : List Link) :
    List Link × NodeSet :=
  match pending with
  | [] => ([], seen)
  | next :: rest =>
      if _hSeen : next.id ∈ seen then
        links store seen rest
      else if _hStored : next.id ∈ store.nodes then
        let below := store.childrenOf next.id
        let (later, final) :=
          links store (seen.insert next.id)
            (below.map (fun child => ⟨child, some next.id⟩) ++ rest)
        (next :: later, final)
      else
        links store (seen.insert next.id) rest
termination_by store.unseenParts seen + pending.length
decreasing_by
  · simp
  · have hLe := unseenParts_insert_add_le _hStored _hSeen
    simp only [List.length_append, List.length_map, List.length_cons]
    omega
  · have hLe := unseenParts_insert_le store seen next.id
    simp only [List.length_cons]
    omega

------------------------------------------------------------
-- Writing the Links
------------------------------------------------------------

/- Record some links. -/
def record
    (store : Store)
    (links : List Link) :
    Store :=
  links.foldl (fun store link => store.setParent link.id link.parent) store

/-
  Write the parent links below a start.  Ids in `seen` are
  skipped, and the ids visited are added to them.
-/
def linkFrom
    (store : Store)
    (start : NodeId)
    (seen : NodeSet) :
    Logged (Store × NodeSet) := do
  let (visited, seen) := store.links seen [⟨start, none⟩]
  Logged.note (.linked seen.size start)
  pure (store.record visited, seen)

/- Write the parent links below the root, if there is one. -/
def link
    (store : Store) :
    Logged Store :=
  match store.root with
  | none => pure store
  | some root => (·.1) <$> store.linkFrom root ∅

end Store

end ShapeTypes
