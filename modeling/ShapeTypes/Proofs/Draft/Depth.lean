import ShapeTypes.Proofs.Concrete.Places
import ShapeTypes.Proofs.Draft.Outlines

/-
  How deep inference goes in the outline of a program.

  Inference goes down one level of the concrete tree at least
  with every node that it consults: no step leads from a node
  to another one of the same concrete node.  The limit on
  nesting therefore limits the depth of inference.

  Key definitions include:
    * `ShapeTypes.Kind.rise`
    * `ShapeTypes.Outline.hops`
    * `ShapeTypes.Draft.Shallow`

  Key theorems include:
    * `ShapeTypes.Draft.Drawn.hops_le`
    * `ShapeTypes.Draft.shallow_ofTree`
    * `ShapeTypes.Store.programOutline_hops_le`
-/

------------------------------------------------------------
-- Hops
------------------------------------------------------------

namespace ShapeTypes

/-
  Whether a step from a node to a part of it counts as a hop.
  A property only wraps the value that is consulted.
-/
def Kind.rise : Kind → Nat
  | variableDeclaration _ _ => 1
  | variableDeclarator _ _ _ => 1
  | arrayExpression _ => 1
  | objectExpression _ => 1
  | arrowFunction _ _ _ => 1
  | conditional _ _ _ => 1
  | binary _ _ _ => 1
  | member _ _ _ => 1
  | _ => 0

theorem Kind.rise_le_one
    (kind : Kind) :
    kind.rise ≤ 1 := by
  cases kind <;> simp [rise]

namespace Outline

mutual

/- The most hops on a way down. -/
def hops : Outline → Nat
  | node _ kind parts => hopsIn kind.rise parts

/- The most hops on a way down that starts with a step to a part. -/
def hopsIn (rise : Nat) : List Outline → Nat
  | [] => 0
  | part :: parts => max (hops part + rise) (hopsIn rise parts)

end

/- A bound on the hops of the parts is one on those of the node. -/
theorem hops_le
    {outline : Outline}
    {n : Nat}
    (hParts :
      ∀ part ∈ outline.parts, part.hops + outline.kind.rise ≤ n) :
    outline.hops ≤ n := by
  cases outline with
  | node location kind parts =>
      rw [hops]
      simp only [Outline.parts, Outline.kind] at hParts
      induction parts with
      | nil => exact Nat.zero_le n
      | cons part parts ih =>
          rw [List.forall_mem_cons] at hParts
          rw [hopsIn]
          exact Nat.max_le.2 ⟨hParts.1, ih hParts.2⟩

/- A step to a part leaves fewer hops, if it counts. -/
theorem hops_add_rise_le
    {outline part : Outline}
    (hPart : part ∈ outline.parts) :
    part.hops + outline.kind.rise ≤ outline.hops := by
  cases outline with
  | node location kind parts =>
      rw [hops]
      simp only [Outline.parts, Outline.kind] at hPart ⊢
      induction parts with
      | nil => simp at hPart
      | cons first parts ih =>
          rw [hopsIn]
          rcases List.mem_cons.1 hPart with rfl | hPart
          · exact Nat.le_max_left _ _
          · exact Nat.le_trans (ih hPart) (Nat.le_max_right _ _)

end Outline

end ShapeTypes

------------------------------------------------------------
-- Levels of Drafts
------------------------------------------------------------

namespace ShapeTypes

namespace Draft

variable {source : List Char} {draft : Draft} {outlines : List Outline}

/- At most so many levels lie below a draft. -/
inductive Shallow : Nat → Draft → Prop where
  | leaf {n : Nat} {draft : Draft}
      (hNone : draft.parts = []) :
      Shallow n draft
  | level {n : Nat} {draft : Draft}
      (hParts : ∀ part ∈ draft.parts, Shallow n part) :
      Shallow (n + 1) draft

/- A part has one level less below it. -/
theorem Shallow.part
    {n : Nat}
    {part : Draft}
    (hShallow : Shallow n draft)
    (hPart : part ∈ draft.parts) :
    ∃ m, n = m + 1 ∧ Shallow m part := by
  cases hShallow with
  | leaf hNone => simp [hNone] at hPart
  | @level m _ hParts => exact ⟨m, rfl, hParts part hPart⟩

/- What is drawn from a draft has no more hops than levels. -/
theorem Drawn.hops_le
    {n : Nat}
    (hDrawn : Drawn source draft outlines)
    (hShallow : draft.Shallow n) :
    ∀ part ∈ outlines, part.hops ≤ n := by
  induction hDrawn generalizing n with
  | ascription draft =>
      rw [List.forall_mem_singleton]
      exact Nat.zero_le n
  | spread hPicks _ ih =>
      refine forall_outlines fun pick hPick part hPart => ?_
      rcases hShallow.part (hPicks.subset (List.mem_map_of_mem hPick)) with
        ⟨m, rfl, hPickShallow⟩
      exact Nat.le_succ_of_le (ih pick hPick hPickShallow part hPart)
  | @node draft picks kind _ _ hPicks _ ih =>
      rw [List.forall_mem_singleton]
      refine Outline.hops_le (forall_outlines fun pick hPick part hPart => ?_)
      rcases hShallow.part (hPicks.subset (List.mem_map_of_mem hPick)) with
        ⟨m, rfl, hPickShallow⟩
      exact Nat.add_le_add (ih pick hPick hPickShallow part hPart)
        kind.rise_le_one
  | shorthand _ _ ih =>
      rw [List.forall_mem_singleton]
      exact Outline.hops_le (ih hShallow)
  | bare _ ih =>
      rw [List.forall_mem_singleton]
      exact Outline.hops_le (ih hShallow)
  | method _ _ _ ihKey ihValue =>
      rw [List.forall_mem_singleton]
      refine Outline.hops_le (List.forall_mem_cons.2 ⟨?_, ihValue hShallow⟩)
      exact ihKey hShallow _ (by simp)
  | unnamedMethod _ _ ihParts ihValue =>
      rw [List.forall_mem_singleton]
      refine Outline.hops_le (List.forall_mem_cons.2 ⟨?_, ihValue hShallow⟩)
      exact ihParts hShallow _ (by simp)
  | bodiless _ _ _ _ ihAbandoned ihOwn =>
      rw [List.forall_mem_singleton]
      exact Outline.hops_le
        (List.forall_mem_append.2 ⟨ihAbandoned hShallow, ihOwn hShallow⟩)

end Draft

end ShapeTypes

------------------------------------------------------------
-- Levels of Trees
------------------------------------------------------------

namespace ShapeTypes

open Concrete (Tree)

namespace Concrete

namespace Tree

/- No node is too deep below the named trees of a list. -/
theorem tooDeep?_eq_none_of_mem
    {levels : Nat}
    {trees : List Tree}
    {tree : Tree}
    (hNone : tooDeepIn? levels trees = none)
    (hMem : tree ∈ trees)
    (hNamed : tree.label.isNamed = true) :
    tree.tooDeep? levels = none := by
  induction trees with
  | nil => simp at hMem
  | cons first trees ih =>
      rw [tooDeepIn?] at hNone
      split at hNone
      · simp at hNone
      · rename_i hRest
        rcases List.mem_cons.1 hMem with rfl | hMem
        · simpa [hNamed] using hNone
        · exact ih hRest hMem

end Tree

end Concrete

namespace Draft

/- The limit on nesting limits the levels of the draft. -/
theorem shallow_ofTree
    (source : List Char)
    {tree : Tree}
    {levels : Nat}
    (hTokens : tree.TokensAreLeaves)
    (hNone : tree.tooDeep? levels = none) :
    (ofTree source tree).Shallow levels := by
  induction tree using Tree.induct generalizing levels with
  | hNode label children ih =>
      rcases Tree.everywhere_node_iff.1 hTokens with ⟨-, hChildren⟩
      cases levels with
      | zero => simp [Tree.tooDeep?] at hNone
      | succ levels =>
          refine .level ?_
          intro part hPart
          rw [parts_ofTree] at hPart
          rcases List.mem_map.1 hPart with ⟨child, hChild, rfl⟩
          rw [Tree.tooDeep?] at hNone
          cases hNamed : child.label.isNamed with
          | true =>
              exact ih child hChild (hChildren child hChild)
                (Tree.tooDeep?_eq_none_of_mem hNone hChild hNamed)
          | false =>
              have hLeaf : child.children = [] := by
                cases child with
                | node label children =>
                    exact (Tree.everywhere_node_iff.1
                      (hChildren _ hChild)).1 hNamed
              refine .leaf ?_
              rw [parts_ofTree, hLeaf, List.map_nil]

end Draft

namespace Store

/- Inference goes no deeper in a program than nodes are nested. -/
theorem programOutline_hops_le
    {source : List Char}
    {tree : Tree}
    (hAccepted : tree.refusal? source = none)
    (hTokens : tree.TokensAreLeaves) :
    (programOutline source tree).hops ≤ nestingLimit := by
  have hNone := (Tree.refusal?_eq_none.1 hAccepted).2.2
  have hShallow := Draft.shallow_ofTree source hTokens hNone
  refine Outline.hops_le ?_
  intro part hPart
  rcases List.mem_map.1 hPart with ⟨draft, hDraft, rfl⟩
  rw [Draft.ofTrees_eq_map, ← Draft.parts_ofTree] at hDraft
  have hMem := (Draft.substantial_sublist _).subset hDraft
  rcases hShallow.part hMem with ⟨levels, hLevels, hBelow⟩
  obtain rfl : nestingLimit = levels := Nat.succ.inj hLevels
  exact ((Draft.ofTree_drawn source tree).parts draft hMem).here.drawn.hops_le
    hBelow _ (by simp)

end Store

end ShapeTypes
