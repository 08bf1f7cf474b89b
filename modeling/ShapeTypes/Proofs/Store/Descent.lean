import Mathlib.Order.Basic
import ShapeTypes.Proofs.Store.Search

/-
  The search for a range in a store whose parts come before
  their owners.

  No part is met again above itself, so the search goes down
  to the first part that contains the range whenever there
  is one, and a budget for all nodes is never short.

  Key definitions include:
    * `ShapeTypes.Store.Ordered`
    * `ShapeTypes.Store.Leads`

  Key theorems include:
    * `ShapeTypes.Store.Leads.unique`
    * `ShapeTypes.Store.descend_leads`
    * `ShapeTypes.Store.locate_leads`
-/

------------------------------------------------------------
-- Descents
------------------------------------------------------------

namespace ShapeTypes

namespace Store

/- Every part of a node is stored, with a smaller id. -/
def Ordered
    (store : Store) : Prop :=
  ∀ id child : Nat, child ∈ store.childrenOf id →
    child ∈ store.nodes ∧ child < id

/-
  The descent from one node leads to another: it goes into
  the first part that contains the range, and ends where no
  part does.
-/
inductive Leads
    (store : Store)
    (range : SourceRange) :
    NodeId → NodeId → Prop where
  | stop {id : NodeId}
      (hNone : ∀ child ∈ store.childrenOf id, ¬ store.Covers range child) :
      Leads store range id id
  | step {id child final : NodeId} {passed pending : List NodeId}
      (hParts : store.childrenOf id = passed ++ child :: pending)
      (hPassed : ∀ other ∈ passed, ¬ store.Covers range other)
      (hCovers : store.Covers range child)
      (hLeads : Leads store range child final) :
      Leads store range id final

/- The first part that contains the range is found by a look-up. -/
theorem find?_covers
    {store : Store}
    {range : SourceRange}
    {children passed pending : List NodeId}
    {child : NodeId}
    (hParts : children = passed ++ child :: pending)
    (hPassed : ∀ other ∈ passed, ¬ store.Covers range other)
    (hCovers : store.Covers range child) :
    (children.find? fun id => decide (store.Covers range id)) =
      some child := by
  rw [List.find?_eq_some_iff_append]
  refine ⟨by simpa using hCovers, passed, pending, hParts, ?_⟩
  intro other hOther
  simpa using hPassed other hOther

/- There is one way down. -/
theorem Leads.unique
    {store : Store}
    {range : SourceRange}
    {id a b : NodeId}
    (ha : store.Leads range id a)
    (hb : store.Leads range id b) :
    a = b := by
  induction ha with
  | stop hNone =>
      cases hb with
      | stop => rfl
      | step hParts _ hCovers _ =>
          exact absurd hCovers (hNone _ (by simp [hParts]))
  | step hParts hPassed hCovers _ ih =>
      cases hb with
      | stop hNone => exact absurd hCovers (hNone _ (by simp [hParts]))
      | step hParts' hPassed' hCovers' hLeads =>
          have hFirst := find?_covers hParts hPassed hCovers
          rw [find?_covers hParts' hPassed' hCovers',
            Option.some.injEq] at hFirst
          rw [hFirst] at hLeads
          exact ih hLeads

/- When all stored ids are seen, none is left. -/
theorem mem_of_unseen_eq_zero
    {store : Store}
    {seen : NodeSet}
    {id : NodeId}
    (hNone : store.unseen seen = 0)
    (hStored : id ∈ store.nodes) :
    id ∈ seen := by
  by_contra hNew
  have hLt := unseen_insert_lt hStored hNew
  omega

/-
  What a search knows when it stands at `head` and has tried
  the parts in `passed`.  What it has seen and contains the
  range is the node itself or above it, so it is none of the
  parts.
-/
structure Descending
    (store : Store)
    (range : SourceRange)
    (head : Nat)
    (passed pending : List NodeId)
    (seen : NodeSet) : Prop where
  parts : store.childrenOf head = passed ++ pending
  passed : ∀ other ∈ passed, ¬ store.Covers range other
  above : ∀ id : Nat, id ∈ seen → store.Covers range id → head ≤ id

namespace Descending

variable {store : Store} {range : SourceRange} {head : Nat}
variable {child : Nat} {passed pending : List NodeId} {seen : NodeSet}

/- A part that was seen before does not contain the range. -/
theorem not_covers_of_seen
    (hAt : store.Descending range head passed pending seen)
    (hOrdered : store.Ordered)
    (hChild : child ∈ pending)
    (hSeen : child ∈ seen) :
    ¬ store.Covers range child := by
  intro hCovers
  have hLe := hAt.above child hSeen hCovers
  have hLt := (hOrdered head child (by simp [hAt.parts, hChild])).2
  omega

/- A part that does not contain the range is passed. -/
theorem pass
    {later : NodeSet}
    (hAt : store.Descending range head passed (child :: pending) seen)
    (hNot : ¬ store.Covers range child)
    (hLater : ∀ id, id ∈ later → id = child ∨ id ∈ seen) :
    store.Descending range head (passed ++ [child]) pending later := by
  refine ⟨by simp [hAt.parts], ?_, ?_⟩
  · intro other hOther
    rcases List.mem_append.1 hOther with hOther | hOther
    · exact hAt.passed other hOther
    · rw [List.mem_singleton.1 hOther]
      exact hNot
  · intro id hId hCovers
    rcases hLater id hId with rfl | hId
    · exact absurd hCovers hNot
    · exact hAt.above id hId hCovers

/- A part that contains the range is entered. -/
theorem enter
    (hAt : store.Descending range head passed (child :: pending) seen)
    (hOrdered : store.Ordered) :
    store.Descending range child [] (store.childrenOf child)
      (seen.insert child) := by
  refine ⟨rfl, by simp, ?_⟩
  intro id hId hCovers
  rcases NodeSet.mem_insert.1 hId with rfl | hId
  · exact Nat.le_refl _
  · have hLe := hAt.above id hId hCovers
    have hLt := (hOrdered head child (by simp [hAt.parts])).2
    omega

end Descending

/-
  The search below a node ends where the descent does, if
  its budget is enough for all that it has not seen.
-/
theorem descend_leads
    {store : Store}
    {range : SourceRange}
    {head : Nat}
    {chain passed pending : List NodeId}
    {budget : Nat}
    {seen : NodeSet}
    (hOrdered : store.Ordered)
    (hHead : chain.head? = some head)
    (hAt : store.Descending range head passed pending seen)
    (hBudget : store.unseen seen ≤ budget) :
    ∃ final,
      (store.descend range chain pending budget seen).found? = some final ∧
        store.Leads range head final := by
  fun_induction store.descend range chain pending budget seen
      generalizing head passed with
  | case1 chain budget seen =>
      refine ⟨head, hHead, .stop ?_⟩
      simpa [hAt.parts] using hAt.passed
  | case2 chain seen child pending =>
      have hNone : store.unseen seen = 0 := Nat.le_zero.1 hBudget
      refine ⟨head, hHead, .stop ?_⟩
      intro other hOther
      rw [hAt.parts] at hOther
      rcases List.mem_append.1 hOther with hOther | hOther
      · exact hAt.passed other hOther
      · have hStored := (hOrdered head other (by simp [hAt.parts, hOther])).1
        exact hAt.not_covers_of_seen hOrdered hOther
          (mem_of_unseen_eq_zero hNone hStored)
  | case3 chain seen child pending budget hSeen ih =>
      have hNot := hAt.not_covers_of_seen hOrdered (by simp) hSeen
      exact ih hHead (hAt.pass hNot fun id hId => Or.inr hId) hBudget
  | case4 chain seen child pending budget hNew hCovers ih =>
      have hLt := unseen_insert_lt (mem_nodes_of_covers hCovers) hNew
      rcases ih rfl (hAt.enter hOrdered) (by omega) with
        ⟨final, hFound, hLeads⟩
      exact ⟨final, hFound,
        .step hAt.parts hAt.passed hCovers hLeads⟩
  | case5 chain seen child pending budget hNew hNot ih =>
      have hStored := (hOrdered head child (by simp [hAt.parts])).1
      have hLt := unseen_insert_lt hStored hNew
      exact ih hHead (hAt.pass hNot fun id => NodeSet.mem_insert.1)
        (by omega)

------------------------------------------------------------
-- Location
------------------------------------------------------------

/- Nothing is found below a node that does not contain the range. -/
theorem locate_eq_none
    {store : Store}
    {range : SourceRange}
    {start : NodeId}
    (hNot : ¬ store.Covers range start) :
    (store.locate range start).value = none := by
  rw [value_locate, found?_search_eq_none_iff]
  exact Or.inr (Or.inr hNot)

/- The search below a node that contains the range is a descent. -/
theorem locate_leads
    {store : Store}
    {range : SourceRange}
    {start : NodeId}
    (hOrdered : store.Ordered)
    (hSize : store.size ≤ defaultBudget)
    (hCovers : store.Covers range start) :
    ∃ final,
      (store.locate range start).value = some final ∧
        store.Leads range start final := by
  have hNew : start ∉ (∅ : NodeSet) := by simp
  have hBudget : store.unseen ((∅ : NodeSet).insert start) ≤ 99999 := by
    have hLt := unseen_insert_lt (mem_nodes_of_covers hCovers) hNew
    rw [unseen_empty] at hLt
    have hBound : store.size ≤ 100000 := hSize
    omega
  have hAt :
      store.Descending range start [] (store.childrenOf start)
        ((∅ : NodeSet).insert start) := by
    refine ⟨rfl, by simp, ?_⟩
    intro id hId _
    rcases NodeSet.mem_insert.1 hId with rfl | hId
    · exact Nat.le_refl _
    · simp at hId
  have hHead : [start].head? = some start := rfl
  rcases descend_leads hOrdered hHead hAt hBudget with
    ⟨final, hFound, hLeads⟩
  refine ⟨final, ?_, hLeads⟩
  rw [value_locate, show defaultBudget = 99999 + 1 from rfl,
    search_of_covers 99999 hNew hCovers]
  exact hFound

end Store

end ShapeTypes
