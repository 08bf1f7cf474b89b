import ShapeTypes.Proofs.Draft.Depth
import ShapeTypes.Proofs.Inference.Table
import ShapeTypes.Proofs.Outline.Stored

/-
  Inference in the store of a program.

  The limit on nesting keeps every node within the limit on
  depth, and no part leads back to the node it belongs to.
  Inference gives the types of the table.

  Key definitions include:
    * `ShapeTypes.Site.hopsAt`

  Key theorems include:
    * `ShapeTypes.Store.Represents.hopsAt_add_rise_le`
    * `ShapeTypes.Engine.ranked_of_represents`
    * `ShapeTypes.Engine.infer_eq_iff_hasType`
-/

------------------------------------------------------------
-- Hops at Ids
------------------------------------------------------------

namespace ShapeTypes

namespace Site

open Classical in
/- The hops of the outline whose top node has an id. -/
noncomputable def hopsAt
    (top : Site)
    (id : Nat) :
    Nat :=
  if hSite : ∃ site, top.Below site ∧ site.id = id then
    hSite.choose.outline.hops
  else
    0

theorem hopsAt_id
    {top site : Site}
    (hBelow : top.Below site) :
    top.hopsAt site.id = site.outline.hops := by
  have hSite : ∃ other, top.Below other ∧ other.id = site.id :=
    ⟨site, hBelow, rfl⟩
  rw [hopsAt, dif_pos hSite,
    hSite.choose_spec.1.eq_of_id_eq hBelow hSite.choose_spec.2]

/- What is below a site has no more hops. -/
theorem Below.hops_le
    {top site : Site}
    (hBelow : top.Below site) :
    site.outline.hops ≤ top.outline.hops := by
  induction hBelow with
  | refl => exact Nat.le_refl _
  | part _ hPart ih =>
      have hLe := Outline.hops_add_rise_le (outline_mem_of_mem_parts hPart)
      omega

/- No id has more hops than the top. -/
theorem hopsAt_le
    (top : Site)
    (id : Nat) :
    top.hopsAt id ≤ top.outline.hops := by
  rw [hopsAt]
  split
  · rename_i hSite
    exact hSite.choose_spec.1.hops_le
  · exact Nat.zero_le _

end Site

end ShapeTypes

------------------------------------------------------------
-- Ranks
------------------------------------------------------------

namespace ShapeTypes

/- The steps of a node that consults others count as hops. -/
theorem Store.rise_eq_one_of_consulted
    {store : Store}
    {kind : Kind}
    {child : NodeId}
    (hChild : child ∈ store.consulted kind) :
    kind.rise = 1 := by
  cases kind with
  | variableDeclaration | variableDeclarator | arrayExpression
  | objectExpression | arrowFunction | conditional | binary => rfl
  | _ => cases hChild

@[simp]
theorem Kind.rise_map
    (f : NodeId → NodeId)
    (kind : Kind) :
    (kind.map f).rise = kind.rise := by
  cases kind <;> rfl

namespace Store

variable {store : Store} {top : Site}
variable {i child : NodeId} {kind : Kind}

/- A node with parts has a kind that lists them. -/
theorem exists_kind_of_mem_childrenOf
    (hChild : child ∈ store.childrenOf i) :
    ∃ kind, store.kind? i = some kind ∧ child ∈ kind.children := by
  unfold childrenOf at hChild
  split at hChild
  · rename_i node hFind
    exact ⟨node.kind, by simp [kind?, hFind], hChild⟩
  · simp at hChild

/- A step to a part leaves fewer hops, if it counts. -/
theorem Represents.hopsAt_add_rise_le
    (hRep : store.Represents top)
    (hRefers : top.outline.Forall Outline.RefersToParts)
    (hKind : store.kind? i = some kind)
    (hChild : child ∈ kind.children) :
    top.hopsAt child + kind.rise ≤ top.hopsAt i := by
  rcases Option.map_eq_some_iff.1 hKind with ⟨node, hFind, rfl⟩
  rcases hRep.exists_site hFind with ⟨site, hBelow, rfl, hNode⟩
  have hListed : child ∈ store.childrenOf site.id := by
    simpa [Store.childrenOf, hFind] using hChild
  rcases hRep.exists_part_of_mem_childrenOf hBelow
      (hBelow.forall_outline hRefers).here hListed with
    ⟨part, hPart, rfl⟩
  rw [Site.hopsAt_id hBelow, Site.hopsAt_id (hBelow.part hPart), hNode]
  simp only [Site.node, Site.kind, Kind.rise_map]
  exact Outline.hops_add_rise_le (Site.outline_mem_of_mem_parts hPart)

/- The names of a path are no more than the hops of the callee. -/
theorem Represents.length_le_of_calleePath
    {names : List String}
    (hRep : store.Represents top)
    (hRefers : top.outline.Forall Outline.RefersToParts)
    (hPath : store.CalleePath i names) :
    names.length ≤ top.hopsAt i + 1 := by
  induction hPath with
  | identifier _ => simp
  | @property id object property name names hKind _ _ ih =>
      have hLe := hRep.hopsAt_add_rise_le hRefers hKind
        (by simp [Kind.children] : object ∈ _)
      simp only [Kind.rise] at hLe
      rw [List.length_append, List.length_singleton]
      omega

end Store

namespace Engine

/- The hops in the store of a shallow outline are ranks. -/
theorem ranked_of_represents
    {engine : Engine}
    {store : Store}
    {top : Site}
    (hRep : store.Represents top)
    (hRefers : top.outline.Forall Outline.RefersToParts)
    (hHops : top.outline.hops ≤ engine.options.maxDepth) :
    engine.Ranked store top.hopsAt := by
  constructor
  · intro i kind hKind child hChild
    have hRise := Store.rise_eq_one_of_consulted hChild
    rcases Store.consulted_cases hChild with
      hPart | ⟨property, hProperty, hPart⟩
    · have hLe := hRep.hopsAt_add_rise_le hRefers hKind hPart
      omega
    · have hOuter := hRep.hopsAt_add_rise_le hRefers hKind hProperty
      rcases Store.exists_kind_of_mem_childrenOf hPart with
        ⟨inner, hInner, hMem⟩
      have hLe := hRep.hopsAt_add_rise_le hRefers hInner hMem
      omega
  · intro i
    exact Nat.le_trans (top.hopsAt_le i) hHops
  · intro callee names hPath
    have hLength := hRep.length_le_of_calleePath hRefers hPath
    have hLe := top.hopsAt_le callee
    omega

end Engine

end ShapeTypes

------------------------------------------------------------
-- Types in Programs
------------------------------------------------------------

namespace ShapeTypes

open Concrete (Tree)

namespace Engine

/-
  In the store of an accepted program, inference gives every
  node the type that it has by the table alone, whatever the
  engine, if its limit on depth is no less than the limit on
  nesting.
-/
theorem infer_eq_iff_hasType
    {engine : Engine}
    {source : String}
    {tree : Tree}
    {store : Store}
    (hBuilt : (Store.build source (some tree)).value = .ok store)
    (hTokens : tree.TokensAreLeaves)
    (hDepth : nestingLimit ≤ engine.options.maxDepth)
    (id : NodeId)
    (type : Descriptor) :
    engine.infer store id = type ↔ engine.HasType store id type := by
  rcases Store.build_eq_ok_iff.1 hBuilt with ⟨hAccepted, -, rfl⟩
  have hHops := Store.programOutline_hops_le hAccepted hTokens
  have hRanked : engine.Ranked _ _ :=
    ranked_of_represents (Store.ofProgram_represents source.toList tree)
      (Store.programOutline_refersToParts source.toList tree)
      (Nat.le_trans hHops hDepth)
  exact hRanked.infer_eq_iff

/-
  The declaration of the sample has the type of an object
  without fields: the only key is computed.
-/
theorem infer_eq_iff_hasType_sample :
    ({ } : Engine).infer
        (Store.ofProgram Concrete.Sample.source.toList
          Concrete.Sample.tree) 16 = .record [] ∧
      ({ } : Engine).HasType
        (Store.ofProgram Concrete.Sample.source.toList
          Concrete.Sample.tree) 16 (.record []) := by
  have hType :
      ({ } : Engine).infer
        (Store.ofProgram Concrete.Sample.source.toList
          Concrete.Sample.tree) 16 = .record [] := by
    decide +kernel
  have hBuilt :
      (Store.build Concrete.Sample.source
          (some Concrete.Sample.tree)).value =
        .ok (Store.ofProgram Concrete.Sample.source.toList
          Concrete.Sample.tree) :=
    Store.build_eq_ok_iff.2 ⟨by decide +kernel, by decide +kernel, rfl⟩
  have hTokens : Concrete.Sample.tree.TokensAreLeaves := by
    decide +kernel
  exact ⟨hType,
    (infer_eq_iff_hasType hBuilt hTokens (Nat.le_refl _) 16 _).1 hType⟩

end Engine

end ShapeTypes
