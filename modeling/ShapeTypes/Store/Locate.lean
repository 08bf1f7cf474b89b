import ShapeTypes.Log
import ShapeTypes.Store.Basic

/-
  The search for the node that a selection lies in.

  The search goes down from a start into the first part
  that contains the selection, as long as there is one.
  Ids that were seen before count as not containing it, and
  at most a given number of ids is looked at.

  Key definitions include:
    * `ShapeTypes.Store.Covers`
    * `ShapeTypes.Search`
    * `ShapeTypes.Store.descend`
    * `ShapeTypes.Store.search`
    * `ShapeTypes.Store.locateWith`
    * `ShapeTypes.Store.locate`
-/

namespace ShapeTypes

------------------------------------------------------------
-- Searches
------------------------------------------------------------

/-
  The end of a search: the nodes it passed, from the
  innermost outwards, the ids it has seen, and whether it
  stopped for want of visits.
-/
structure Search where
  chain : List NodeId
  seen : NodeSet
  isSpent : Bool

/- The node that a search found. -/
def Search.found?
    (search : Search) :
    Option NodeId :=
  search.chain.head?

namespace Store

/- A stored node contains the range. -/
def Covers
    (store : Store)
    (range : SourceRange)
    (id : NodeId) : Prop :=
  match store.find? id with
  | some node => range.Within node.location
  | none => False

instance
    (store : Store)
    (range : SourceRange)
    (id : NodeId) :
    Decidable (store.Covers range id) := by
  unfold Covers
  split <;> infer_instance

/- A node that contains a range is stored. -/
theorem mem_nodes_of_covers
    {store : Store}
    {range : SourceRange}
    {id : NodeId}
    (hCovers : store.Covers range id) :
    id ∈ store.nodes := by
  rw [mem_nodes_iff]
  unfold Covers at hCovers
  cases hFind : store.find? id with
  | none => simp [hFind] at hCovers
  | some node => exact ⟨node, rfl⟩

/-
  Go down from the head of `chain`.  `pending` are the
  parts of that node still to be tried, and `budget` is the
  number of ids that may still be looked at.
-/
def descend
    (store : Store)
    (range : SourceRange)
    (chain : List NodeId)
    (pending : List NodeId)
    (budget : Nat)
    (seen : NodeSet) :
    Search :=
  match pending, budget with
  | [], _ => ⟨chain, seen, false⟩
  | _ :: _, 0 => ⟨chain, seen, true⟩
  | child :: rest, budget + 1 =>
      if _hSeen : child ∈ seen then
        descend store range chain rest (budget + 1) seen
      else if _hCovers : store.Covers range child then
        descend store range (child :: chain) (store.childrenOf child) budget
          (seen.insert child)
      else
        descend store range chain rest budget (seen.insert child)
termination_by store.unseenParts seen + pending.length
decreasing_by
  · simp
  · have hLe := unseenParts_insert_add_le (mem_nodes_of_covers _hCovers) _hSeen
    simp only [List.length_cons]
    omega
  · have hLe := unseenParts_insert_le store seen child
    simp only [List.length_cons]
    omega

/- Search below a start. -/
def search
    (store : Store)
    (range : SourceRange)
    (start : NodeId)
    (budget : Nat)
    (seen : NodeSet) :
    Search :=
  match budget with
  | 0 => ⟨[], seen, false⟩
  | budget + 1 =>
      if start ∈ seen then
        ⟨[], seen, false⟩
      else if store.Covers range start then
        store.descend range [start] (store.childrenOf start) budget
          (seen.insert start)
      else
        ⟨[], seen.insert start, false⟩

/- A start that was seen before, or is never looked at, is not searched. -/
theorem search_of_skipped
    {store : Store}
    {range : SourceRange}
    {start : NodeId}
    {budget : Nat}
    {seen : NodeSet}
    (hSkipped : budget = 0 ∨ start ∈ seen) :
    store.search range start budget seen = ⟨[], seen, false⟩ := by
  cases budget with
  | zero => rfl
  | succ budget =>
      rw [search, if_pos (hSkipped.resolve_left (Nat.succ_ne_zero budget))]

/- A new start without the range is looked at, and that is all. -/
theorem search_of_not_covers
    {store : Store}
    {range : SourceRange}
    {start : NodeId}
    {seen : NodeSet}
    (budget : Nat)
    (hNew : start ∉ seen)
    (hNot : ¬ store.Covers range start) :
    store.search range start (budget + 1) seen =
      ⟨[], seen.insert start, false⟩ := by
  rw [search, if_neg hNew, if_neg hNot]

/- From a new start with the range, the search goes down. -/
theorem search_of_covers
    {store : Store}
    {range : SourceRange}
    {start : NodeId}
    {seen : NodeSet}
    (budget : Nat)
    (hNew : start ∉ seen)
    (hCovers : store.Covers range start) :
    store.search range start (budget + 1) seen =
      store.descend range [start] (store.childrenOf start) budget
        (seen.insert start) := by
  rw [search, if_neg hNew, if_pos hCovers]

------------------------------------------------------------
-- Location of Ranges
------------------------------------------------------------

/- How many ids a search looks at unless told otherwise. -/
def defaultBudget : Nat :=
  100000

/- The report on a node that was found. -/
def foundEvents
    (store : Store)
    (range : SourceRange)
    (id : NodeId) :
    List Event :=
  match store.find? id with
  | some node => [.located node.kind.name node.id node.location range]
  | none => []

/- The reports on a search. -/
def searchEvents
    (store : Store)
    (range : SourceRange)
    (search : Search) :
    List Event :=
  match search.found? with
  | none => [.notContained range]
  | some id =>
      (if search.isSpent then [.budgetSpent range] else [])
        ++ store.foundEvents range id

/- Search below a start, and report on the search. -/
def locateWith
    (store : Store)
    (range : SourceRange)
    (start : NodeId)
    (budget : Nat)
    (seen : NodeSet) :
    Logged Search := do
  let search := store.search range start budget seen
  Logged.noteAll (store.searchEvents range search)
  pure search

/- The report is no part of the search. -/
theorem value_locateWith
    (store : Store)
    (range : SourceRange)
    (start : NodeId)
    (budget : Nat)
    (seen : NodeSet) :
    (store.locateWith range start budget seen).value =
      store.search range start budget seen :=
  rfl

/- The deepest node below a start that contains a range. -/
def locate
    (store : Store)
    (range : SourceRange)
    (start : NodeId) :
    Logged (Option NodeId) :=
  (·.found?) <$> store.locateWith range start defaultBudget ∅

theorem value_locate
    (store : Store)
    (range : SourceRange)
    (start : NodeId) :
    (store.locate range start).value =
      (store.search range start defaultBudget ∅).found? :=
  rfl

end Store

end ShapeTypes
