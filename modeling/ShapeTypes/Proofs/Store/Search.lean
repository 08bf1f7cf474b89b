import Mathlib.Data.List.Chain
import ShapeTypes.Store.Locate

/-
  The search for a range in any store.

  The store may be any graph, and ids may have been seen
  before.  A search passes down a chain of nodes that contain
  the range.  Every id that it sees is on the chain or beside
  it, and an id beside the chain does not contain the range.
  With fewer visits a search stops earlier on the same way.

  Key definitions include:
    * `ShapeTypes.Store.Trail`
    * `ShapeTypes.Store.Searched`
    * `ShapeTypes.Search.Begins`
    * `ShapeTypes.Store.Locates`

  Key theorems include:
    * `ShapeTypes.Store.Searched.descend`
    * `ShapeTypes.Store.mem_seen_descend`
    * `ShapeTypes.Store.descend_budget`
    * `ShapeTypes.Store.locateWith_locates`
    * `ShapeTypes.Store.locateWith_budget`
-/

------------------------------------------------------------
-- Trails
------------------------------------------------------------

namespace ShapeTypes

/- An id that is new makes a set larger by one. -/
theorem NodeSet.size_insert
    {seen : NodeSet}
    {id : NodeId}
    (hNew : id ∉ seen) :
    (seen.insert id).size = seen.size + 1 := by
  simp [Std.ExtTreeSet.size_insert, hNew]

namespace Store

/-
  A way down from a start, listed from its end.  Each node is
  a part of the next, none is there twice, and all are new
  and contain the range.
-/
structure Trail
    (store : Store)
    (range : SourceRange)
    (before : NodeSet)
    (start : NodeId)
    (chain : List NodeId) : Prop where
  last : chain.getLast? = some start
  parts : chain.IsChain fun child owner => child ∈ store.childrenOf owner
  nodup : chain.Nodup
  new : ∀ id ∈ chain, id ∉ before
  covers : ∀ id ∈ chain, store.Covers range id

/-
  What a search knows that has passed a chain.  It has seen
  the chain and parts of the nodes on it, and what it has seen
  beside the chain does not contain the range.
-/
structure Searched
    (store : Store)
    (range : SourceRange)
    (before : NodeSet)
    (start : NodeId)
    (chain : List NodeId)
    (seen : NodeSet) : Prop
    extends store.Trail range before start chain where
  kept : ∀ id ∈ before, id ∈ seen
  passed : ∀ id ∈ chain, id ∈ seen
  listed :
    ∀ id ∈ seen, id ∈ before ∨ id = start ∨
      ∃ owner ∈ chain, id ∈ store.childrenOf owner
  beside :
    ∀ id ∈ seen, store.Covers range id → id ∈ before ∨ id ∈ chain

namespace Searched

variable {store : Store} {range : SourceRange} {before seen : NodeSet}
variable {start head child : NodeId} {chain pending : List NodeId}

/- The search begins at a new start that contains the range. -/
theorem begin
    (hNew : start ∉ before)
    (hCovers : store.Covers range start) :
    store.Searched range before start [start] (before.insert start) where
  last := rfl
  parts := List.isChain_singleton start
  nodup := by simp
  new := List.forall_mem_singleton.2 hNew
  covers := List.forall_mem_singleton.2 hCovers
  kept := fun _ hId => NodeSet.mem_insert.2 (Or.inr hId)
  passed := List.forall_mem_singleton.2 (NodeSet.mem_insert.2 (Or.inl rfl))
  listed := fun _ hId => (NodeSet.mem_insert.1 hId).symm.imp_right Or.inl
  beside := fun _ hId _ =>
    (NodeSet.mem_insert.1 hId).symm.imp_right List.mem_singleton.2

/- A new part that contains the range is the next on the chain. -/
theorem enter
    (hSearched : store.Searched range before start chain seen)
    (hHead : chain.head? = some head)
    (hPart : child ∈ store.childrenOf head)
    (hNew : child ∉ seen)
    (hCovers : store.Covers range child) :
    store.Searched range before start (child :: chain)
      (seen.insert child) where
  last := by
    rw [List.getLast?_cons, hSearched.last, Option.getD_some]
  parts := by
    refine hSearched.parts.cons ?_
    rw [hHead]
    rintro owner ⟨⟩
    exact hPart
  nodup :=
    List.nodup_cons.2
      ⟨fun hPassed => hNew (hSearched.passed child hPassed), hSearched.nodup⟩
  new :=
    List.forall_mem_cons.2
      ⟨fun hBefore => hNew (hSearched.kept child hBefore), hSearched.new⟩
  covers := List.forall_mem_cons.2 ⟨hCovers, hSearched.covers⟩
  kept := fun id hId => NodeSet.mem_insert.2 (Or.inr (hSearched.kept id hId))
  passed := by
    intro id hId
    rw [NodeSet.mem_insert]
    exact (List.mem_cons.1 hId).imp_right (hSearched.passed id)
  listed := by
    intro id hId
    rcases NodeSet.mem_insert.1 hId with rfl | hId
    · exact Or.inr (Or.inr
        ⟨head, List.mem_cons_of_mem id (List.mem_of_head? hHead), hPart⟩)
    · refine (hSearched.listed id hId).imp_right (Or.imp_right ?_)
      rintro ⟨owner, hOwner, hListed⟩
      exact ⟨owner, List.mem_cons_of_mem child hOwner, hListed⟩
  beside := by
    intro id hId hWithin
    rcases NodeSet.mem_insert.1 hId with rfl | hId
    · exact Or.inr List.mem_cons_self
    · exact (hSearched.beside id hId hWithin).imp_right
        (List.mem_cons_of_mem child)

/- A part that does not contain the range stays beside the chain. -/
theorem pass
    (hSearched : store.Searched range before start chain seen)
    (hHead : chain.head? = some head)
    (hPart : child ∈ store.childrenOf head)
    (hNot : ¬ store.Covers range child) :
    store.Searched range before start chain (seen.insert child) where
  toTrail := hSearched.toTrail
  kept := fun id hId => NodeSet.mem_insert.2 (Or.inr (hSearched.kept id hId))
  passed := fun id hId =>
    NodeSet.mem_insert.2 (Or.inr (hSearched.passed id hId))
  listed := by
    intro id hId
    rcases NodeSet.mem_insert.1 hId with rfl | hId
    · exact Or.inr (Or.inr ⟨head, List.mem_of_head? hHead, hPart⟩)
    · exact hSearched.listed id hId
  beside := by
    intro id hId hCovers
    rcases NodeSet.mem_insert.1 hId with rfl | hId
    · exact absurd hCovers hNot
    · exact hSearched.beside id hId hCovers

/- What is known of a chain is known of the chain at the end. -/
theorem descend
    {budget : Nat}
    (hSearched : store.Searched range before start chain seen)
    (hHead : chain.head? = some head)
    (hParts : ∀ child ∈ pending, child ∈ store.childrenOf head) :
    store.Searched range before start
      (store.descend range chain pending budget seen).chain
      (store.descend range chain pending budget seen).seen := by
  fun_induction store.descend range chain pending budget seen
      generalizing head with
  | case1 chain budget seen => exact hSearched
  | case2 chain seen child pending => exact hSearched
  | case3 chain seen child pending budget hSeen ih =>
      exact ih hSearched hHead (List.forall_mem_cons.1 hParts).2
  | case4 chain seen child pending budget hNew hCovers ih =>
      have hPart := (List.forall_mem_cons.1 hParts).1
      exact ih (hSearched.enter hHead hPart hNew hCovers) rfl
        fun _ hChild => hChild
  | case5 chain seen child pending budget hNew hNot ih =>
      rcases List.forall_mem_cons.1 hParts with ⟨hPart, hRest⟩
      exact ih (hSearched.pass hHead hPart hNot) hHead hRest

/- What is known of the chain of every search that finds something. -/
theorem search
    {budget : Nat}
    (hBudget : budget ≠ 0)
    (hNew : start ∉ before)
    (hCovers : store.Covers range start) :
    store.Searched range before start
      (store.search range start budget before).chain
      (store.search range start budget before).seen := by
  obtain ⟨budget, rfl⟩ := Nat.exists_eq_add_one_of_ne_zero hBudget
  rw [search_of_covers budget hNew hCovers]
  exact (begin hNew hCovers).descend rfl fun _ hChild => hChild

end Searched

end Store

end ShapeTypes

------------------------------------------------------------
-- Visits
------------------------------------------------------------

namespace ShapeTypes

namespace Store

variable {store : Store} {range : SourceRange} {seen : NodeSet}
variable {chain pending : List NodeId} {budget : Nat}

/-
  Each new id takes a visit, and a search is spent only when
  all visits are taken.
-/
theorem size_seen_descend
    (store : Store)
    (range : SourceRange)
    (chain pending : List NodeId)
    (budget : Nat)
    (seen : NodeSet) :
    seen.size ≤ (store.descend range chain pending budget seen).seen.size ∧
      (store.descend range chain pending budget seen).seen.size ≤
        seen.size + budget ∧
      ((store.descend range chain pending budget seen).isSpent = true →
        (store.descend range chain pending budget seen).seen.size =
          seen.size + budget) := by
  fun_induction store.descend range chain pending budget seen with
  | case1 chain budget seen => simp
  | case2 chain seen child pending => simp
  | case3 chain seen child pending budget hSeen ih => exact ih
  | case4 chain seen child pending budget hNew hCovers ih =>
      rw [NodeSet.size_insert hNew] at ih
      refine ⟨by omega, by omega, fun hSpent => ?_⟩
      rw [ih.2.2 hSpent, Nat.add_right_comm]
      rfl
  | case5 chain seen child pending budget hNew hNot ih =>
      rw [NodeSet.size_insert hNew] at ih
      refine ⟨by omega, by omega, fun hSpent => ?_⟩
      rw [ih.2.2 hSpent, Nat.add_right_comm]
      rfl

/- A search that is not spent has seen all parts of what it found. -/
theorem mem_seen_descend
    {head found child : NodeId}
    (hHead : chain.head? = some head)
    (hParts : ∀ part ∈ store.childrenOf head, part ∈ pending ∨ part ∈ seen)
    (hSpent :
      (store.descend range chain pending budget seen).isSpent = false)
    (hFound :
      (store.descend range chain pending budget seen).found? = some found)
    (hChild : child ∈ store.childrenOf found) :
    child ∈ (store.descend range chain pending budget seen).seen := by
  fun_induction store.descend range chain pending budget seen
      generalizing head with
  | case1 chain budget seen =>
      obtain rfl : head = found := Option.some.inj (hHead.symm.trans hFound)
      simpa using hParts child hChild
  | case2 chain seen other pending => cases hSpent
  | case3 chain seen other pending budget hSeen ih =>
      refine ih hHead ?_ hSpent hFound
      intro part hPart
      rcases hParts part hPart with hPending | hOld
      · rcases List.mem_cons.1 hPending with rfl | hPending
        · exact Or.inr hSeen
        · exact Or.inl hPending
      · exact Or.inr hOld
  | case4 chain seen other pending budget hNew hCovers ih =>
      exact ih rfl (fun _ hPart => Or.inl hPart) hSpent hFound
  | case5 chain seen other pending budget hNew hNot ih =>
      refine ih hHead ?_ hSpent hFound
      intro part hPart
      rw [NodeSet.mem_insert]
      rcases hParts part hPart with hPending | hOld
      · exact (List.mem_cons.1 hPending).symm.imp_right Or.inl
      · exact Or.inr (Or.inr hOld)

end Store

end ShapeTypes

------------------------------------------------------------
-- Smaller Budgets
------------------------------------------------------------

namespace ShapeTypes

/-
  One search is the beginning of another, and is all of it if
  the other has seen no more ids than a limit.
-/
structure Search.Begins
    (short long : Search)
    (limit : Nat) : Prop where
  chain : short.chain <:+ long.chain
  seen : ∀ id ∈ short.seen, id ∈ long.seen
  same :
    long.seen.size ≤ limit →
      short.chain = long.chain ∧ short.seen = long.seen

theorem Search.Begins.refl
    (search : Search)
    (limit : Nat) :
    search.Begins search limit :=
  ⟨List.suffix_rfl, fun _ hId => hId, fun _ => ⟨rfl, rfl⟩⟩

namespace Store

variable {store : Store} {range : SourceRange} {seen : NodeSet}
variable {chain pending : List NodeId} {budget : Nat}

/- A search only adds to its chain and to what it has seen. -/
theorem descend_extends
    (store : Store)
    (range : SourceRange)
    (chain pending : List NodeId)
    (budget : Nat)
    (seen : NodeSet) :
    chain <:+ (store.descend range chain pending budget seen).chain ∧
      ∀ id ∈ seen,
        id ∈ (store.descend range chain pending budget seen).seen := by
  fun_induction store.descend range chain pending budget seen with
  | case1 chain budget seen => exact ⟨List.suffix_rfl, fun _ hId => hId⟩
  | case2 chain seen child pending =>
      exact ⟨List.suffix_rfl, fun _ hId => hId⟩
  | case3 chain seen child pending budget hSeen ih => exact ih
  | case4 chain seen child pending budget hNew hCovers ih =>
      exact ⟨(List.suffix_cons child chain).trans ih.1,
        fun id hId => ih.2 id (NodeSet.mem_insert.2 (Or.inr hId))⟩
  | case5 chain seen child pending budget hNew hNot ih =>
      exact ⟨ih.1,
        fun id hId => ih.2 id (NodeSet.mem_insert.2 (Or.inr hId))⟩

/- A search that sees nothing new stays where it is. -/
theorem descend_of_size_le
    (hSize :
      (store.descend range chain pending budget seen).seen.size ≤
        seen.size) :
    (store.descend range chain pending budget seen).chain = chain ∧
      (store.descend range chain pending budget seen).seen = seen := by
  fun_induction store.descend range chain pending budget seen with
  | case1 chain budget seen => exact ⟨rfl, rfl⟩
  | case2 chain seen child pending => exact ⟨rfl, rfl⟩
  | case3 chain seen child pending budget hSeen ih => exact ih hSize
  | case4 chain seen child pending budget hNew hCovers ih =>
      have hLe :=
        (store.size_seen_descend range (child :: chain)
          (store.childrenOf child) budget (seen.insert child)).1
      rw [NodeSet.size_insert hNew] at hLe
      omega
  | case5 chain seen child pending budget hNew hNot ih =>
      have hLe :=
        (store.size_seen_descend range chain pending budget
          (seen.insert child)).1
      rw [NodeSet.size_insert hNew] at hLe
      omega

/-
  With fewer visits a search ends on the way that it goes with
  more, and at the same place if it needs no more.
-/
theorem descend_budget
    (store : Store)
    (range : SourceRange)
    (chain pending : List NodeId)
    (seen : NodeSet)
    {small large : Nat}
    (hLe : small ≤ large) :
    (store.descend range chain pending small seen).Begins
      (store.descend range chain pending large seen)
      (seen.size + small) := by
  fun_induction store.descend range chain pending small seen
      generalizing large with
  | case1 chain small seen =>
      rw [descend]
      exact .refl _ _
  | case2 chain seen child pending =>
      -- The smaller search stops here, so the larger one goes on from here.
      rcases store.descend_extends range chain (child :: pending) large
        seen with ⟨hChain, hSeen⟩
      refine ⟨hChain, hSeen, fun hSize => ?_⟩
      rcases descend_of_size_le hSize with ⟨hSameChain, hSameSeen⟩
      exact ⟨hSameChain.symm, hSameSeen.symm⟩
  | case3 chain seen child pending small hSeen ih =>
      obtain ⟨large, rfl⟩ := Nat.exists_eq_add_one_of_ne_zero
        (Nat.ne_zero_of_lt hLe)
      rw [descend, dif_pos hSeen]
      exact ih hLe
  | case4 chain seen child pending small hNew hCovers ih =>
      obtain ⟨large, rfl⟩ := Nat.exists_eq_add_one_of_ne_zero
        (Nat.ne_zero_of_lt hLe)
      rw [descend, dif_neg hNew, dif_pos hCovers]
      have hBelow := ih (Nat.le_of_succ_le_succ hLe)
      rw [NodeSet.size_insert hNew, Nat.add_right_comm] at hBelow
      exact hBelow
  | case5 chain seen child pending small hNew hNot ih =>
      obtain ⟨large, rfl⟩ := Nat.exists_eq_add_one_of_ne_zero
        (Nat.ne_zero_of_lt hLe)
      rw [descend, dif_neg hNew, dif_neg hNot]
      have hBelow := ih (Nat.le_of_succ_le_succ hLe)
      rw [NodeSet.size_insert hNew, Nat.add_right_comm] at hBelow
      exact hBelow

end Store

end ShapeTypes

------------------------------------------------------------
-- Searches from a Start
------------------------------------------------------------

namespace ShapeTypes

namespace Store

variable {store : Store} {range : SourceRange} {seen : NodeSet}
variable {start : NodeId} {budget : Nat}

/-
  A search skips the start, or looks at it and ends there, or
  goes down from it.
-/
theorem search_cases
    (store : Store)
    (range : SourceRange)
    (start : NodeId)
    (budget : Nat)
    (seen : NodeSet) :
    ((budget = 0 ∨ start ∈ seen) ∧
        store.search range start budget seen = ⟨[], seen, false⟩) ∨
      ∃ rest, budget = rest + 1 ∧ start ∉ seen ∧
        ((¬ store.Covers range start ∧
            store.search range start budget seen =
              ⟨[], seen.insert start, false⟩) ∨
          (store.Covers range start ∧
            store.search range start budget seen =
              store.descend range [start] (store.childrenOf start) rest
                (seen.insert start))) := by
  by_cases hSkipped : budget = 0 ∨ start ∈ seen
  · exact Or.inl ⟨hSkipped, search_of_skipped hSkipped⟩
  · rcases not_or.1 hSkipped with ⟨hBudget, hNew⟩
    obtain ⟨rest, rfl⟩ := Nat.exists_eq_add_one_of_ne_zero hBudget
    refine Or.inr ⟨rest, rfl, hNew, ?_⟩
    by_cases hCovers : store.Covers range start
    · exact Or.inr ⟨hCovers, search_of_covers rest hNew hCovers⟩
    · exact Or.inl ⟨hCovers, search_of_not_covers rest hNew hCovers⟩

/-
  Nothing is found exactly where there are no visits, or the
  start was seen before or does not contain the range.
-/
theorem found?_search_eq_none_iff :
    (store.search range start budget seen).found? = none ↔
      budget = 0 ∨ start ∈ seen ∨ ¬ store.Covers range start := by
  rcases store.search_cases range start budget seen with
    ⟨hSkipped, hSearch⟩ |
      ⟨rest, rfl, hNew, ⟨hNot, hSearch⟩ | ⟨hCovers, -⟩⟩
  · rw [hSearch]
    exact iff_of_true rfl (hSkipped.imp_right Or.inl)
  · rw [hSearch]
    exact iff_of_true rfl (Or.inr (Or.inr hNot))
  · have hLast :=
      (Searched.search rest.succ_ne_zero hNew hCovers).last
    refine iff_of_false ?_ (by simp [hNew, hCovers])
    intro hNone
    rw [List.head?_eq_none_iff.1 hNone] at hLast
    cases hLast

/- What lets a search find something. -/
theorem admitted_of_found
    {found : NodeId}
    (hFound :
      (store.search range start budget seen).found? = some found) :
    budget ≠ 0 ∧ start ∉ seen ∧ store.Covers range start := by
  have hSome :
      (store.search range start budget seen).found? ≠ none := by
    simp [hFound]
  rw [Ne, found?_search_eq_none_iff, not_or, not_or, not_not] at hSome
  exact hSome

/- A search sees what was seen before, the start and parts of its chain. -/
theorem mem_seen_search
    (store : Store)
    (range : SourceRange)
    (start : NodeId)
    (budget : Nat)
    (seen : NodeSet) :
    (∀ id ∈ seen, id ∈ (store.search range start budget seen).seen) ∧
      ∀ id ∈ (store.search range start budget seen).seen,
        id ∈ seen ∨ id = start ∨
          ∃ owner ∈ (store.search range start budget seen).chain,
            id ∈ store.childrenOf owner := by
  rcases store.search_cases range start budget seen with
    ⟨-, hSearch⟩ | ⟨rest, rfl, hNew, ⟨-, hSearch⟩ | ⟨hCovers, -⟩⟩
  · rw [hSearch]
    exact ⟨fun _ hId => hId, fun _ hId => Or.inl hId⟩
  · rw [hSearch]
    simp only [NodeSet.mem_insert]
    exact ⟨fun _ hId => Or.inr hId, fun _ hId => hId.symm.imp_right Or.inl⟩
  · have hSearched := Searched.search rest.succ_ne_zero hNew hCovers
    exact ⟨hSearched.kept, hSearched.listed⟩

/- No more new ids are seen than there are visits. -/
theorem size_seen_search_le
    (store : Store)
    (range : SourceRange)
    (start : NodeId)
    (budget : Nat)
    (seen : NodeSet) :
    (store.search range start budget seen).seen.size ≤
      seen.size + budget := by
  rcases store.search_cases range start budget seen with
    ⟨-, hSearch⟩ | ⟨rest, rfl, hNew, ⟨-, hSearch⟩ | ⟨-, hSearch⟩⟩
  · rw [hSearch]
    exact Nat.le_add_right _ _
  · rw [hSearch, NodeSet.size_insert hNew]
    omega
  · have hSize :=
      (store.size_seen_descend range [start] (store.childrenOf start) rest
        (seen.insert start)).2.1
    rw [NodeSet.size_insert hNew] at hSize
    rw [hSearch]
    omega

/- If visits are left, all parts of what is found were seen. -/
theorem mem_seen_search_of_size_lt
    {found child : NodeId}
    (hSize :
      (store.search range start budget seen).seen.size <
        seen.size + budget)
    (hFound :
      (store.search range start budget seen).found? = some found)
    (hChild : child ∈ store.childrenOf found) :
    child ∈ (store.search range start budget seen).seen := by
  rcases admitted_of_found hFound with ⟨hBudget, hNew, hCovers⟩
  obtain ⟨budget, rfl⟩ := Nat.exists_eq_add_one_of_ne_zero hBudget
  rw [search_of_covers budget hNew hCovers] at hSize hFound ⊢
  refine mem_seen_descend rfl (fun _ hPart => Or.inl hPart) ?_ hFound hChild
  -- A search that is spent would have taken all visits.
  rw [← Bool.not_eq_true]
  intro hSpent
  have hAll :=
    (store.size_seen_descend range [start] (store.childrenOf start) budget
      (seen.insert start)).2.2 hSpent
  rw [NodeSet.size_insert hNew] at hAll
  omega

/-
  What a search gives, whatever the store is.  It finds nothing
  only where it is refused at the start.  What it finds is at
  the end of a trail from the start.  It sees at most as many new ids as
  it has visits, and these are the start and parts of nodes on
  the trail.  If visits are left, no part of what it finds
  contains the range, other than ids that were seen before and
  ids on the trail.
-/
structure Locates
    (store : Store)
    (range : SourceRange)
    (start : NodeId)
    (budget : Nat)
    (before : NodeSet)
    (result : Search) : Prop where
  refused :
    result.found? = none ↔
      budget = 0 ∨ start ∈ before ∨ ¬ store.Covers range start
  trail :
    ∀ found, result.found? = some found →
      store.Trail range before start result.chain ∧
        result.chain.head? = some found
  kept : ∀ id ∈ before, id ∈ result.seen
  visits : result.seen.size ≤ before.size + budget
  listed :
    ∀ id ∈ result.seen, id ∉ before →
      id = start ∨ ∃ owner ∈ result.chain, id ∈ store.childrenOf owner
  deepest :
    result.seen.size < before.size + budget →
      ∀ found, result.found? = some found →
        ∀ child ∈ store.childrenOf found, store.Covers range child →
          child ∈ before ∨ child ∈ result.chain

/- Every search keeps to its trail. -/
theorem locateWith_locates
    (store : Store)
    (range : SourceRange)
    (start : NodeId)
    (budget : Nat)
    (seen : NodeSet) :
    store.Locates range start budget seen
      (store.locateWith range start budget seen).value := by
  rw [value_locateWith]
  rcases store.mem_seen_search range start budget seen with
    ⟨hKept, hListed⟩
  constructor
  case refused => exact found?_search_eq_none_iff
  case trail =>
    intro found hFound
    rcases admitted_of_found hFound with ⟨hBudget, hNew, hCovers⟩
    exact ⟨(Searched.search hBudget hNew hCovers).toTrail, hFound⟩
  case kept => exact hKept
  case visits => exact store.size_seen_search_le range start budget seen
  case listed =>
    intro id hId hNew
    exact (hListed id hId).resolve_left hNew
  case deepest =>
    intro hSize found hFound child hChild hWithin
    rcases admitted_of_found hFound with ⟨hBudget, hNew, hCovers⟩
    exact (Searched.search hBudget hNew hCovers).beside child
      (mem_seen_search_of_size_lt hSize hFound hChild) hWithin

/-
  A store that leads back to its root.  Node 4 is listed twice
  and node 9 is missing.
-/
def looped : Store :=
  [({ id := 1, location := ⟨1, 2, 1, 1, 1, 2⟩,
      kind := .literal (.number "1") "1" } : Node),
    { id := 2, location := ⟨0, 10, 1, 0, 1, 10⟩,
      kind := .arrayExpression [some 3, some 9, some 4, some 1] },
    { id := 3, location := ⟨0, 10, 1, 0, 1, 10⟩,
      kind := .program [4, 2] },
    { id := 4, location := ⟨5, 8, 1, 5, 1, 8⟩,
      kind := .identifier "a" }].foldl put empty |>.setRoot 3

/-
  Both parts of node 2 that contain the range are passed over:
  node 3 is on the chain, and node 1 was seen before.
-/
theorem locateWith_locates_looped :
    (looped.locateWith (.caret ⟨0, 1⟩) 3 9
        (Std.ExtTreeSet.ofList [1])).value.chain = [2, 3] ∧
      looped.Covers (.caret ⟨0, 1⟩) 1 ∧
      looped.Covers (.caret ⟨0, 1⟩) 3 ∧
      ∀ child ∈ looped.childrenOf 2,
        looped.Covers (.caret ⟨0, 1⟩) child →
          child ∈ (Std.ExtTreeSet.ofList [1] : NodeSet) ∨
            child ∈
              (looped.locateWith (.caret ⟨0, 1⟩) 3 9
                (Std.ExtTreeSet.ofList [1])).value.chain := by
  refine ⟨by decide +kernel, by decide +kernel, by decide +kernel, ?_⟩
  exact (looped.locateWith_locates (.caret ⟨0, 1⟩) 3 9
    (Std.ExtTreeSet.ofList [1])).deepest (by decide +kernel) 2
      (by decide +kernel)

/- With fewer visits a search from a start goes the same way. -/
theorem search_budget
    {small large : Nat}
    (hSmall : small ≠ 0)
    (hLe : small ≤ large) :
    (store.search range start small seen).Begins
      (store.search range start large seen) (seen.size + small) := by
  obtain ⟨small, rfl⟩ := Nat.exists_eq_add_one_of_ne_zero hSmall
  obtain ⟨large, rfl⟩ := Nat.exists_eq_add_one_of_ne_zero
    (Nat.ne_zero_of_lt hLe)
  by_cases hStart : start ∉ seen ∧ store.Covers range start
  · rcases hStart with ⟨hNew, hCovers⟩
    have hBelow :=
      store.descend_budget range [start] (store.childrenOf start)
        (seen.insert start) (Nat.le_of_succ_le_succ hLe)
    rw [NodeSet.size_insert hNew, Nat.add_right_comm] at hBelow
    rw [search_of_covers small hNew hCovers,
      search_of_covers large hNew hCovers]
    exact hBelow
  · -- The start alone is looked at, so the number of visits is no matter.
    have hSame :
        store.search range start (small + 1) seen =
          store.search range start (large + 1) seen := by
      by_cases hSeen : start ∈ seen
      · rw [search_of_skipped (Or.inr hSeen),
          search_of_skipped (Or.inr hSeen)]
      · have hNot := fun hCovers => hStart ⟨hSeen, hCovers⟩
        rw [search_of_not_covers small hSeen hNot,
          search_of_not_covers large hSeen hNot]
    rw [hSame]
    exact .refl _ _

/-
  With fewer visits, but at least one, a search goes the same
  way and stops no later.  It finds something exactly if it
  does with more visits, and what it finds is on the chain of
  the longer search.  If the longer search needs no more visits
  than the shorter one has, both end alike.
-/
theorem locateWith_budget
    (store : Store)
    (range : SourceRange)
    (start : NodeId)
    (seen : NodeSet)
    {small large : Nat}
    (hSmall : 1 ≤ small)
    (hLe : small ≤ large) :
    ((store.locateWith range start small seen).value.found?.isSome ↔
        (store.locateWith range start large seen).value.found?.isSome) ∧
      (∀ found,
        (store.locateWith range start small seen).value.found? =
            some found →
          found ∈ (store.locateWith range start large seen).value.chain) ∧
      (store.locateWith range start small seen).value.chain <:+
        (store.locateWith range start large seen).value.chain ∧
      (∀ id ∈ (store.locateWith range start small seen).value.seen,
        id ∈ (store.locateWith range start large seen).value.seen) ∧
      ((store.locateWith range start large seen).value.seen.size ≤
          seen.size + small →
        (store.locateWith range start small seen).value.found? =
            (store.locateWith range start large seen).value.found? ∧
          (store.locateWith range start small seen).value.seen =
            (store.locateWith range start large seen).value.seen) := by
  simp only [value_locateWith]
  have hSmallPos : small ≠ 0 := Nat.ne_of_gt hSmall
  have hLargePos : large ≠ 0 := Nat.ne_of_gt (hSmall.trans hLe)
  rcases search_budget hSmallPos hLe with ⟨hChain, hSeen, hSame⟩
  refine ⟨?_, ?_, hChain, hSeen, ?_⟩
  · rw [Option.isSome_iff_ne_none, Option.isSome_iff_ne_none, Ne, Ne,
      found?_search_eq_none_iff, found?_search_eq_none_iff]
    simp only [hSmallPos, hLargePos]
  · intro found hFound
    exact hChain.subset (List.mem_of_head? hFound)
  · intro hSize
    rcases hSame hSize with ⟨hSameChain, hSameSeen⟩
    exact ⟨congrArg List.head? hSameChain, hSameSeen⟩

/-
  With four visits the search stops at node 2, before it has
  tried node 1.  With five it ends as with nine, although its
  last visit is taken.
-/
theorem locateWith_budget_looped :
    (looped.locateWith (.caret ⟨0, 1⟩) 3 4 ∅).value.found? = some 2 ∧
      2 ∈ (looped.locateWith (.caret ⟨0, 1⟩) 3 9 ∅).value.chain ∧
      (looped.locateWith (.caret ⟨0, 1⟩) 3 9 ∅).value.found? = some 1 ∧
      (looped.locateWith (.caret ⟨0, 1⟩) 3 5 ∅).value.found? = some 1 ∧
      (looped.locateWith (.caret ⟨0, 1⟩) 3 5 ∅).value.seen =
        (looped.locateWith (.caret ⟨0, 1⟩) 3 9 ∅).value.seen := by
  have hFour :=
    looped.locateWith_budget (.caret ⟨0, 1⟩) 3 ∅
      (show 1 ≤ 4 by decide) (show 4 ≤ 9 by decide)
  have hFive :=
    looped.locateWith_budget (.caret ⟨0, 1⟩) 3 ∅
      (show 1 ≤ 5 by decide) (show 5 ≤ 9 by decide)
  have hStops :
      (looped.locateWith (.caret ⟨0, 1⟩) 3 4 ∅).value.found? = some 2 := by
    decide +kernel
  have hEnds :
      (looped.locateWith (.caret ⟨0, 1⟩) 3 9 ∅).value.found? = some 1 := by
    decide +kernel
  rcases hFive.2.2.2.2 (by decide +kernel) with ⟨hFound, hSeen⟩
  exact ⟨hStops, hFour.2.1 2 hStops, hEnds, hFound.trans hEnds, hSeen⟩

end Store

end ShapeTypes
