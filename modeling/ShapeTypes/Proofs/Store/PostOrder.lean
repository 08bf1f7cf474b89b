import Mathlib.Data.List.Dedup
import Mathlib.Data.List.Sort
import Mathlib.Logic.Relation
import ShapeTypes.Proofs.Draft.Outlines
import ShapeTypes.Proofs.Store.Forest

/-
  The shape of the stores that are built.

  The ids of a built store are the numbers of its nodes in
  post-order.  What lies below a node takes a stretch of ids
  that ends at the node, and the stretches of its parts lie
  in it one behind the other.

  Key definitions include:
    * `ShapeTypes.Store.Reaches`
    * `ShapeTypes.Store.block`
    * `ShapeTypes.Store.PostOrdered`
    * `ShapeTypes.Builder.Reachable`

  Key theorems include:
    * `ShapeTypes.Store.Represents.reaches_iff`
    * `ShapeTypes.Store.Represents.dedup_childrenOf`
    * `ShapeTypes.Store.Represents.parent?_link_iff`
    * `ShapeTypes.Builder.build_postOrdered`
-/

------------------------------------------------------------
-- Stretches of Ids
------------------------------------------------------------

namespace ShapeTypes

namespace Store

/- A node, its parts, their parts, and so on. -/
def Reaches
    (store : Store) :
    NodeId → NodeId → Prop :=
  Relation.ReflTransGen fun id child => child ∈ store.childrenOf id

/- The ids from the first to the last. -/
def block
    (first last : Nat) :
    List Nat :=
  List.range' first (last + 1 - first)

theorem mem_block_iff
    {first last i : Nat} :
    i ∈ block first last ↔ first ≤ i ∧ i ≤ last := by
  rw [block, List.mem_range'_1]
  omega

end Store

namespace Site

open Store (block)

/- The sites of a list share the stretch they take in order. -/
theorem flatMap_block_listFrom
    (base : Nat)
    (parts : List Outline) :
    (listFrom base parts).flatMap
        (fun site => block (site.base + 1) site.id) =
      List.range' (base + 1) (Outline.sizeAll parts) := by
  induction parts generalizing base with
  | nil => rfl
  | cons part parts ih =>
      have hFirst :
          block (base + 1) (Site.mk base part).id =
            List.range' (base + 1) part.size := by
        have hLength : base + part.size + 1 - (base + 1) = part.size := by
          omega
        rw [block, id, hLength]
      rw [listFrom, List.flatMap_cons, ih, hFirst, Outline.sizeAll,
        ← List.range'_append_1]
      congr 2
      omega

/- The stretch of a site is that of its parts and its own id. -/
theorem block_eq
    (site : Site) :
    block (site.base + 1) site.id =
      site.parts.flatMap (fun part => block (part.base + 1) part.id) ++
        [site.id] := by
  rw [parts, flatMap_block_listFrom, block, id_eq]
  have hLength :
      site.base + Outline.sizeAll site.outline.parts + 1 + 1 -
          (site.base + 1) =
        Outline.sizeAll site.outline.parts + 1 := by
    omega
  rw [hLength, List.range'_1_concat]
  congr 2
  omega

theorem pairwise_parts_id
    (site : Site) :
    (site.parts.map id).Pairwise (· < ·) := by
  rw [List.pairwise_map]
  refine (pairwise_listFrom _ _).imp ?_
  intro a b hBehind
  exact Nat.lt_of_le_of_lt hBehind b.base_lt_id

/- A node that lists each part once refers to their ids. -/
theorem map_idAt_range
    (site : Site) :
    (List.range site.outline.parts.length).map site.idAt =
      site.parts.map id := by
  apply List.ext_getElem?
  intro place
  rw [← length_parts, List.getElem?_map, List.getElem?_map]
  by_cases hPlace : place < site.parts.length
  · rw [List.getElem?_range hPlace, List.getElem?_eq_getElem hPlace,
      Option.map_some, Option.map_some,
      idAt_eq (List.getElem?_eq_getElem hPlace)]
  · rw [Nat.not_lt] at hPlace
    rw [List.getElem?_eq_none hPlace,
      List.getElem?_eq_none (by simpa using hPlace)]
    rfl

end Site

end ShapeTypes

------------------------------------------------------------
-- Stores of Sites
------------------------------------------------------------

namespace ShapeTypes

namespace Store

namespace Represents

variable {store : Store} {top site : Site} {i : Nat}

/- The ids of a store are those of its top. -/
theorem mem_nodes_iff_bounds
    (hRep : store.Represents top) :
    i ∈ store.nodes ↔ top.base < i ∧ i ≤ top.id := by
  constructor
  · intro hStored
    rcases mem_nodes_iff.1 hStored with ⟨node, hNode⟩
    rcases hRep.below hNode with ⟨site, hBelow, rfl⟩
    have hBounds := hBelow.bounds
    have hBase := site.base_lt_id
    omega
  · rintro ⟨hAbove, hTop⟩
    rcases Site.exists_below hAbove hTop with ⟨site, hBelow, rfl⟩
    exact hRep.mem_nodes hBelow

/- The ids of a store in increasing order. -/
theorem ids_eq
    (hRep : store.Represents top) :
    store.ids = block (top.base + 1) top.id := by
  have hBlock : (block (top.base + 1) top.id).Pairwise (· < ·) :=
    List.pairwise_lt_range'
  apply store.ids_pairwise.eq_of_mem_iff hBlock
  intro i
  rw [mem_block_iff, mem_ids_iff]
  exact hRep.mem_nodes_iff_bounds

theorem size_eq
    (hRep : store.Represents top) :
    top.base + store.size = top.id := by
  have hLength := congrArg List.length hRep.ids_eq
  rw [ids, Std.ExtTreeMap.length_keys, block, List.length_range'] at hLength
  have hBase := top.base_lt_id
  rw [size]
  omega

/- What is reached from a node lies below its site. -/
theorem exists_below_of_reaches
    (hRep : store.Represents top)
    (hRefers : top.outline.Forall Outline.RefersToParts)
    (hBelow : top.Below site)
    (hReaches : store.Reaches site.id i) :
    ∃ lower, site.Below lower ∧ lower.id = i := by
  induction hReaches with
  | refl => exact ⟨site, .refl, rfl⟩
  | tail _ hChild ih =>
      rcases ih with ⟨lower, hLower, rfl⟩
      have hThere := hBelow.trans hLower
      rcases hRep.exists_part_of_mem_childrenOf hThere
          (hThere.forall_outline hRefers).here hChild with
        ⟨part, hPart, hId⟩
      exact ⟨part, hLower.part hPart, hId⟩

/- What lies below a site is reached from its node. -/
theorem reaches_of_below
    {lower : Site}
    (hRep : store.Represents top)
    (hLists : top.outline.Forall Outline.ListsParts)
    (hBelow : top.Below site)
    (hLower : site.Below lower) :
    store.Reaches site.id lower.id := by
  induction hLower with
  | refl => exact .refl
  | @part above part hAbove hPart ih =>
      have hThere := hBelow.trans hAbove
      refine ih.tail ?_
      rw [hRep.mem_childrenOf_iff hThere (hThere.forall_outline hLists).here]
      exact ⟨part, hPart, rfl⟩

/- A node reaches the stretch of ids that ends at it. -/
theorem reaches_iff
    (hRep : store.Represents top)
    (hLists : top.outline.Forall Outline.ListsParts)
    (hBelow : top.Below site) :
    store.Reaches site.id i ↔ i ∈ block (site.base + 1) site.id := by
  rw [mem_block_iff]
  constructor
  · intro hReaches
    rcases hRep.exists_below_of_reaches
        (hLists.imp fun _ => Outline.ListsParts.refersToParts) hBelow
        hReaches with
      ⟨lower, hLower, rfl⟩
    have hBounds := hLower.bounds
    have hBase := lower.base_lt_id
    omega
  · rintro ⟨hAbove, hTop⟩
    rcases Site.exists_below hAbove hTop with ⟨lower, hLower, rfl⟩
    exact hRep.reaches_of_below hLists hBelow hLower

/- The parts of a node, each once, are those of its site in order. -/
theorem dedup_childrenOf
    (hRep : store.Represents top)
    (hBelow : top.Below site)
    (hOnce : site.outline.ListsOnce) :
    (store.childrenOf site.id).dedup = site.parts.map Site.id := by
  rw [hRep.childrenOf hBelow]
  rcases hOnce with hRange | ⟨hKind, location, name, hParts⟩
  · rw [hRange, Site.map_idAt_range]
    exact List.dedup_eq_self.2 (site.pairwise_parts_id.imp Nat.ne_of_lt)
  · -- The key and the value are one node.
    simp [hKind, Kind.children, Site.parts, hParts, Site.listFrom,
      Site.idAt]

/- Only a shorthand property refers to a part twice. -/
theorem nodup_or_shorthand
    (hRep : store.Represents top)
    (hBelow : top.Below site)
    (hOnce : site.outline.ListsOnce) :
    site.kind.children.Nodup ∨
      ∃ name text part,
        site.kind = .property name name false true false ∧
          store.find? name = some part ∧
          part.kind = .identifier text := by
  rcases hOnce with hRange | ⟨hKind, location, text, hParts⟩
  · apply Or.inl
    rw [Site.kind, Kind.children_map, hRange, Site.map_idAt_range]
    exact site.pairwise_parts_id.imp Nat.ne_of_lt
  · apply Or.inr
    let part : Site := ⟨site.base, .leaf location (.identifier text)⟩
    have hSites : site.parts = [part] := by
      rw [Site.parts, hParts]
      rfl
    have hId : site.idAt 0 = part.id := Site.idAt_eq (by rw [hSites]; rfl)
    rcases hRep.find (hBelow.part (by rw [hSites]; simp : part ∈ _)) with
      ⟨parent, hFind⟩
    refine ⟨part.id, text, _, ?_, hFind, rfl⟩
    rw [Site.kind, hKind, Kind.map, hId]

/- A node is listed by the owner of its site. -/
theorem exists_owner_of_mem_childrenOf
    {parent : NodeId}
    (hRep : store.Represents top)
    (hRefers : top.outline.Forall Outline.RefersToParts)
    (hChild : i ∈ store.childrenOf parent) :
    ∃ owner part,
      top.Below owner ∧
        part ∈ owner.parts ∧ owner.id = parent ∧ part.id = i := by
  have hParent : ∃ node, store.find? parent = some node := by
    rw [← Option.isSome_iff_exists, Option.isSome_iff_ne_none]
    intro hNone
    simp [Store.childrenOf, hNone] at hChild
  rcases hParent with ⟨node, hNode⟩
  rcases hRep.below hNode with ⟨owner, hOwner, rfl⟩
  rcases hRep.exists_part_of_mem_childrenOf hOwner
      (hOwner.forall_outline hRefers).here hChild with
    ⟨part, hPart, hId⟩
  exact ⟨owner, part, hOwner, hPart, rfl, hId⟩

/- The node that refers to a part is unique. -/
theorem existsUnique_owner
    (hRep : store.Represents top)
    (hLists : top.outline.Forall Outline.ListsParts)
    (hStored : i ∈ store.nodes)
    (hNotTop : i ≠ top.id) :
    ∃! parent, i ∈ store.childrenOf parent := by
  rcases mem_nodes_iff.1 hStored with ⟨node, hNode⟩
  rcases hRep.below hNode with ⟨part, hBelow, rfl⟩
  cases hBelow with
  | refl => exact absurd rfl hNotTop
  | @part owner _ hOwner hPart =>
      refine ⟨owner.id, ?_, ?_⟩
      · apply (hRep.mem_childrenOf_iff hOwner
          (hOwner.forall_outline hLists).here).2
        exact ⟨part, hPart, rfl⟩
      · intro other hChild
        rcases hRep.exists_owner_of_mem_childrenOf
            (hLists.imp fun _ => Outline.ListsParts.refersToParts)
            hChild with
          ⟨above, same, hAbove, hSame, rfl, hSameId⟩
        have hEq : same = part :=
          (hAbove.part hSame).eq_of_id_eq (hOwner.part hPart) hSameId
        rw [hEq] at hSame
        rw [hAbove.owner_unique hOwner hSame hPart]

end Represents

end Store

end ShapeTypes

------------------------------------------------------------
-- The Shape of Built Stores
------------------------------------------------------------

namespace ShapeTypes

namespace Store

/-
  The shape of a store whose ids are the numbers of a syntax
  tree in post-order.

  The ids run from one to the number of nodes, which is the
  root and the only program.  What a node reaches is a
  stretch of ids that ends at the node, made of the stretches
  of its parts in their order.  Every node but the root is a
  part of one node.  Only the name of a shorthand property is
  listed twice by its node.  There are no parents yet.
-/
structure PostOrdered
    (store : Store) : Prop where
  ids : store.ids = block 1 store.size
  root : store.root = some store.size
  program :
    ∀ id node, store.find? id = some node →
      ((∃ body, node.kind = .program body) ↔ id = store.size)
  stored :
    ∀ id, ∀ child ∈ store.childrenOf id, child ∈ store.nodes
  blocks :
    ∃ first : NodeId → NodeId,
      ∀ id ∈ store.nodes,
        (∀ i, store.Reaches id i ↔ i ∈ block (first id) id) ∧
          block (first id) id =
            (store.childrenOf id).dedup.flatMap
                (fun child => block (first child) child) ++
              [id]
  repeated :
    ∀ id node, store.find? id = some node →
      node.kind.children.Nodup ∨
        ∃ name text part,
          node.kind = .property name name false true false ∧
            store.find? name = some part ∧
            part.kind = .identifier text
  owner :
    ∀ id ∈ store.nodes, id ≠ store.size →
      ∃! parent, id ∈ store.childrenOf parent
  unlinked : ∀ id, store.parent? id = none

namespace Represents

variable {store : Store} {top : Site}

/- The stretches of all nodes of a store. -/
theorem exists_blocks
    (hRep : store.Represents top)
    (hOnce : top.outline.Forall Outline.ListsOnce) :
    ∃ first : NodeId → NodeId,
      ∀ id ∈ store.nodes,
        (∀ i, store.Reaches id i ↔ i ∈ block (first id) id) ∧
          block (first id) id =
            (store.childrenOf id).dedup.flatMap
                (fun child => block (first child) child) ++
              [id] := by
  have hLists := hOnce.imp fun _ => Outline.ListsOnce.listsParts
  -- The id of a node says where its stretch begins.
  have hBegins :
      ∀ id : NodeId, ∃ first : NodeId,
        ∀ site, top.Below site → site.id = id → site.base + 1 = first := by
    intro id
    by_cases hSite : ∃ site, top.Below site ∧ site.id = id
    · rcases hSite with ⟨site, hBelow, rfl⟩
      refine ⟨site.base + 1, ?_⟩
      intro other hOther hId
      rw [hOther.eq_of_id_eq hBelow hId]
    · refine ⟨0, ?_⟩
      intro site hBelow hId
      exact absurd ⟨site, hBelow, hId⟩ hSite
  choose first hFirst using hBegins
  refine ⟨first, ?_⟩
  intro id hStored
  rcases mem_nodes_iff.1 hStored with ⟨node, hNode⟩
  rcases hRep.below hNode with ⟨site, hBelow, rfl⟩
  rw [← hFirst _ site hBelow rfl]
  refine ⟨fun i => hRep.reaches_iff hLists hBelow, ?_⟩
  rw [hRep.dedup_childrenOf hBelow (hBelow.forall_outline hOnce).here,
    site.block_eq, List.flatMap_map]
  congr 1
  apply List.flatMap_congr
  intro part hPart
  rw [hFirst _ part (hBelow.part hPart) rfl]

/-
  In the linked store, the parent of a node is the node that
  refers to it.
-/
theorem parent?_link_iff
    {id parent : NodeId}
    (hRep : store.Represents top)
    (hLists : top.outline.Forall Outline.ListsParts) :
    store.link.value.parent? id = some parent ↔
      id ∈ store.link.value.childrenOf parent := by
  have hLinked := hRep.link
  have hRefers := hLists.imp fun _ => Outline.ListsParts.refersToParts
  constructor
  · intro hParent
    rcases Option.bind_eq_some_iff.1 hParent with ⟨node, hNode, -⟩
    rcases hLinked.below hNode with ⟨site, hBelow, rfl⟩
    cases hBelow with
    | refl =>
        -- The top is where the links start, so it has no parent.
        have hVisits := store.links_visits ∅ [⟨top.id, none⟩]
        rcases hRep.exists_link hLists hVisits .refl with
          ⟨link, hLink, hId⟩
        have hSeen : top.id ∈ (store.linkFrom top.id ∅).value.2 := by
          have hFinal := hVisits.mem_final hLink
          rw [hId] at hFinal
          rw [value_linkFrom]
          exact hFinal
        have hNone :=
          (link_rooted hRep.root (hRep.mem_nodes .refl) hSeen).top rfl
        rw [hNone] at hParent
        simp at hParent
    | @part owner _ hOwner hPart =>
        have hFind := hRep.find?_link hLists hOwner hPart
        rw [parent?, hFind, Option.bind_some] at hParent
        cases hParent
        rw [hLinked.mem_childrenOf_iff hOwner
          (hOwner.forall_outline hLists).here]
        exact ⟨site, hPart, rfl⟩
  · intro hChild
    rcases hLinked.exists_owner_of_mem_childrenOf hRefers hChild with
      ⟨owner, part, hOwner, hPart, rfl, rfl⟩
    rw [parent?, hRep.find?_link hLists hOwner hPart]
    rfl

end Represents

open Concrete (Tree)

/- Only the root of a built store is a program. -/
theorem program_iff
    {source : List Char}
    {tree : Tree}
    {id : NodeId}
    {node : Node}
    (hNode : (ofProgram source tree).find? id = some node) :
    (∃ body, node.kind = .program body) ↔
      id = (programSite source tree).id := by
  have hRep := ofProgram_represents source tree
  rcases hRep.exists_site hNode with ⟨site, hBelow, rfl, hSite⟩
  have hKind : node.kind = site.kind := by
    rw [hSite]
    rfl
  rw [hKind]
  constructor
  · rintro ⟨body, hProgram⟩
    rcases hBelow.eq_or_exists_part with rfl | ⟨part, hPart, hLower⟩
    · rfl
    · exfalso
      have hNot :=
        (hLower.forall_outline
          (programOutline_not_program source tree part.outline
            (Site.outline_mem_of_mem_parts hPart))).here
      rw [Site.kind] at hProgram
      cases hOutline : site.outline.kind with
      | program places => exact hNot places hOutline
      | _ => simp [hOutline, Kind.map] at hProgram
  · intro hId
    rw [hBelow.eq_of_id_eq .refl hId]
    exact ⟨_, rfl⟩

/- Built stores are numbered in post-order. -/
theorem ofProgram_postOrdered
    {tree : Tree}
    (source : List Char)
    (hBodies : tree.ArrowsHaveBodies) :
    (ofProgram source tree).PostOrdered := by
  have hRep := ofProgram_represents source tree
  have hOnce := programOutline_listsOnce source hBodies
  have hLists := programOutline_listsParts source hBodies
  have hRefers := programOutline_refersToParts source tree
  have hSize : (ofProgram source tree).size = (programSite source tree).id := by
    rw [← hRep.size_eq]
    exact (Nat.zero_add _).symm
  constructor
  · rw [hSize]
    exact hRep.ids_eq
  · rw [hSize]
    exact hRep.root
  · intro id node hNode
    rw [hSize]
    exact program_iff hNode
  · intro id child hChild
    rcases hRep.exists_owner_of_mem_childrenOf hRefers hChild with
      ⟨owner, part, hOwner, hPart, -, rfl⟩
    exact hRep.mem_nodes (hOwner.part hPart)
  · exact hRep.exists_blocks hOnce
  · intro id node hNode
    rcases hRep.exists_site hNode with ⟨site, hBelow, -, hSite⟩
    rw [hSite]
    exact hRep.nodup_or_shorthand hBelow (hBelow.forall_outline hOnce).here
  · intro id hStored hNotRoot
    rw [hSize] at hNotRoot
    exact hRep.existsUnique_owner hLists hStored hNotRoot
  · exact ofProgram_unlinked source tree

end Store

end ShapeTypes

------------------------------------------------------------
-- Builders
------------------------------------------------------------

namespace ShapeTypes

open Concrete (Tree)

namespace Builder

variable {builder : Builder} {source : String} {tree : Tree}

/- The builders that can be had from a new one. -/
inductive Reachable : Builder → Prop where
  | new : Reachable { }
  | addSource {builder : Builder}
      (hReachable : Reachable builder)
      (source : String)
      (tree : Tree) :
      Reachable (builder.addSource source tree)
  | build {builder : Builder}
      (hReachable : Reachable builder) :
      Reachable builder.build.value.2

/- Building keeps the source, and leaves at most what was stored. -/
theorem build_cases
    (builder : Builder) :
    builder.build.value.2 = builder ∨
      builder.build.value.2 = { builder with store := Store.empty } := by
  unfold build
  cases builder.input with
  | none => exact Or.inl rfl
  | some input =>
      dsimp only
      split
      · exact Or.inl (by simp)
      · exact Or.inl rfl
      · split
        · exact Or.inr (by simp)
        · exact Or.inl rfl

/- Between two calls nothing is stored. -/
theorem Reachable.store_eq
    (hReachable : builder.Reachable) :
    builder.store = Store.empty := by
  induction hReachable with
  | new => rfl
  | addSource _ source tree ih => exact ih
  | @build builder _ ih =>
      rcases builder.build_cases with hSame | hEmpty
      · rw [hSame]
        exact ih
      · rw [hEmpty]

/- What is refused leaves the builder as it was. -/
theorem build_of_refusal
    {refusal : Refusal}
    (hInput : builder.input = some (source, tree))
    (hRefusal : tree.refusal? source.toList = some refusal) :
    builder.build.value = (.error refusal, builder) := by
  rw [build, hInput]
  dsimp only
  rw [hRefusal]
  cases refusal <;> rfl

/-
  What is not refused is built if there are enough ids, and
  leaves the builder as it was, too.
-/
theorem build_of_accepted
    (hReachable : builder.Reachable)
    (hInput : builder.input = some (source, tree))
    (hAccepted : tree.refusal? source.toList = none) :
    builder.build.value =
      (if (Store.programOutline source.toList tree).size ≤ Store.maxId then
        .ok (Store.ofProgram source.toList tree)
      else
        .error (.unstored .idsExhausted), builder) := by
  have hSame : builder = { input := some (source, tree) } := by
    rw [← hInput, ← hReachable.store_eq]
  rw [hSame, build]
  dsimp only
  rw [hAccepted]
  dsimp only
  rw [Store.addProgram_empty]
  by_cases hRoom :
      (Store.programOutline source.toList tree).size ≤ Store.maxId
  · simp only [if_pos hRoom]
    rfl
  · simp only [if_neg hRoom]
    rfl

/- What a builder builds is the store of an accepted program. -/
theorem build_eq_ok_iff
    {next : Builder}
    {store : Store}
    (hReachable : builder.Reachable)
    (hInput : builder.input = some (source, tree)) :
    builder.build.value = (.ok store, next) ↔
      tree.refusal? source.toList = none ∧
        (Store.programOutline source.toList tree).size ≤ Store.maxId ∧
        store = Store.ofProgram source.toList tree ∧ next = builder := by
  cases hRefusal : tree.refusal? source.toList with
  | none =>
      rw [build_of_accepted hReachable hInput hRefusal]
      split
      · simp_all [eq_comm]
      · simp_all
  | some refusal => simp [build_of_refusal hInput hRefusal]

/-
  A builder that accepts a source whose arrow functions have
  bodies builds a store that is numbered in post-order.  Once
  the store is linked, the parent of a node is the node that
  refers to it.  Building again gives the same store.
-/
theorem build_postOrdered
    {next : Builder}
    {store : Store}
    (hReachable : builder.Reachable)
    (hInput : builder.input = some (source, tree))
    (hBodies : tree.ArrowsHaveBodies)
    (hBuilt : builder.build.value = (.ok store, next)) :
    store.PostOrdered ∧
      (∀ id parent,
        store.link.value.parent? id = some parent ↔
          id ∈ store.link.value.childrenOf parent) ∧
      next.build.value = (.ok store, next) := by
  have hAgain := hBuilt
  rw [build_eq_ok_iff hReachable hInput] at hBuilt
  rcases hBuilt with ⟨-, -, rfl, rfl⟩
  refine ⟨Store.ofProgram_postOrdered _ hBodies, ?_, hAgain⟩
  intro id parent
  exact (Store.ofProgram_represents source.toList tree).parent?_link_iff
    (Store.programOutline_listsParts source.toList hBodies)

/-
  The store of the sample has seventeen nodes, and is the
  same when it is built again.
-/
theorem build_postOrdered_sample :
    (Store.ofProgram Concrete.Sample.source.toList
        Concrete.Sample.tree).size = 17 ∧
      (Store.ofProgram Concrete.Sample.source.toList
        Concrete.Sample.tree).PostOrdered ∧
      (∀ id parent,
        (Store.ofProgram Concrete.Sample.source.toList
            Concrete.Sample.tree).link.value.parent? id = some parent ↔
          id ∈ (Store.ofProgram Concrete.Sample.source.toList
            Concrete.Sample.tree).link.value.childrenOf parent) ∧
      (({ } : Builder).addSource Concrete.Sample.source
          Concrete.Sample.tree).build.value =
        (.ok (Store.ofProgram Concrete.Sample.source.toList
            Concrete.Sample.tree),
          ({ } : Builder).addSource Concrete.Sample.source
            Concrete.Sample.tree) := by
  have hReachable :=
    Reachable.new.addSource Concrete.Sample.source Concrete.Sample.tree
  have hBuilt := (build_eq_ok_iff hReachable rfl).2
    ⟨(by decide +kernel :
        Concrete.Sample.tree.refusal? Concrete.Sample.source.toList = none),
      by decide +kernel, rfl, rfl⟩
  exact ⟨by decide +kernel,
    build_postOrdered hReachable rfl (by decide +kernel) hBuilt⟩

end Builder

end ShapeTypes
