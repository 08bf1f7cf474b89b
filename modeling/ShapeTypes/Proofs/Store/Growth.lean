import Mathlib.Algebra.BigOperators.Ring.List
import ShapeTypes.Proofs.Draft.Growth
import ShapeTypes.Proofs.Store.PostOrder

/-
  How many nodes are built from a tree.

  Most nodes of a tree are built once, with at most one node
  around them.  The name of a method of an object is built
  twice, so that a node is built again for each such name
  around it.  The weight of a tree counts this, and bounds
  the number of nodes that are built.  It is the number of
  nodes of the tree if no name of a method holds an object or
  an arrow function, and it can be exponential otherwise.

  Key definitions include:
    * `ShapeTypes.Concrete.Tree.weight`
    * `ShapeTypes.Concrete.Tree.PlainNames`
    * `ShapeTypes.Draft.Weighed`

  Key theorems include:
    * `ShapeTypes.Draft.budgeted_of_plain`
    * `ShapeTypes.Draft.weighed_ofTree`
    * `ShapeTypes.Store.size_ofProgram_le`
    * `ShapeTypes.Builder.size_build_le`
-/

------------------------------------------------------------
-- The Weight of a Tree
------------------------------------------------------------

namespace ShapeTypes

namespace Concrete

namespace Tree

/-
  A tree that holds an object or an arrow function.  Only in
  these there are nodes that get another node around them.
-/
def hasWrappers
    (tree : Tree) :
    Bool :=
  tree.subtrees.any fun t =>
    t.label.kind == "object" || t.label.kind == "arrow_function"

/- How often a child is counted. -/
def share
    (parent : Label)
    (child : Tree) :
    Nat :=
  if parent.kind = "method_definition" ∧
      child.label.field = some "name" ∧ child.hasWrappers = true then
    2
  else
    1

mutual

/- The nodes of a tree, with those in names of methods counted twice. -/
def weight : Tree → Nat
  | node label children => weightIn label children + 1

/- The weight of the children of a node. -/
def weightIn
    (parent : Label) :
    List Tree → Nat
  | [] => 0
  | tree :: trees => share parent tree * weight tree + weightIn parent trees

end

/- No name of a method holds an object or an arrow function. -/
def PlainNames : Tree → Prop :=
  Everywhere fun tree =>
    tree.label.kind = "method_definition" →
      ∀ child ∈ tree.children,
        child.label.field = some "name" → child.hasWrappers = false

instance : DecidablePred PlainNames := fun tree => by
  unfold PlainNames
  infer_instance

/- The weight of the children is the sum of what they count. -/
theorem weightIn_eq
    (parent : Label)
    (trees : List Tree) :
    weightIn parent trees =
      (trees.map fun tree => share parent tree * tree.weight).sum := by
  induction trees with
  | nil => rfl
  | cons tree trees ih => rw [weightIn, ih, List.map_cons, List.sum_cons]

theorem length_subtrees
    (label : Label)
    (children : List Tree) :
    (node label children).subtrees.length =
      (children.map fun child => child.subtrees.length).sum + 1 := by
  rw [subtrees, List.length_cons]
  congr 1
  induction children with
  | nil => rfl
  | cons child children ih =>
      rw [subtreesIn, List.length_append, ih, List.map_cons, List.sum_cons]

theorem one_le_share
    (parent : Label)
    (child : Tree) :
    1 ≤ share parent child := by
  unfold share
  split <;> decide

/- The weight is at least the number of nodes. -/
theorem length_subtrees_le_weight
    (tree : Tree) :
    tree.subtrees.length ≤ tree.weight := by
  induction tree using induct with
  | hNode label children ih =>
      rw [length_subtrees, weight, weightIn_eq]
      refine Nat.succ_le_succ (List.sum_le_sum ?_)
      intro child hChild
      exact Nat.le_trans (ih child hChild)
        (Nat.le_mul_of_pos_left _ (one_le_share label child))

/- With plain names, the weight is the number of nodes. -/
theorem weight_eq_of_plainNames
    {tree : Tree}
    (hPlain : tree.PlainNames) :
    tree.weight = tree.subtrees.length := by
  induction tree using induct with
  | hNode label children ih =>
      rw [PlainNames, everywhere_node_iff] at hPlain
      rw [length_subtrees, weight, weightIn_eq]
      congr 2
      refine List.map_congr_left ?_
      intro child hChild
      have hOnce : share label child = 1 := by
        refine if_neg ?_
        rintro ⟨hMethod, hName, hWrappers⟩
        rw [hPlain.1 hMethod child hChild hName] at hWrappers
        exact Bool.false_ne_true hWrappers
      rw [hOnce, Nat.one_mul, ih child hChild (hPlain.2 child hChild)]

/- A tree without wrappers is no wrapper, and holds none. -/
theorem hasWrappers_eq_false_iff
    {label : Label}
    {children : List Tree} :
    (node label children).hasWrappers = false ↔
      (label.kind ≠ "object" ∧ label.kind ≠ "arrow_function") ∧
        ∀ child ∈ children, child.hasWrappers = false := by
  have hEverywhere :
      ∀ tree : Tree,
        tree.hasWrappers = false ↔
          tree.Everywhere fun t =>
            t.label.kind ≠ "object" ∧ t.label.kind ≠ "arrow_function" := by
    intro tree
    simp [hasWrappers, Everywhere]
  simp only [hEverywhere]
  exact everywhere_node_iff

end Tree

end Concrete

end ShapeTypes

------------------------------------------------------------
-- Drafts of Trees
------------------------------------------------------------

namespace ShapeTypes

open Concrete (Label Tree)

namespace Draft

mutual

/- The tree that a draft belongs to. -/
def tree : Draft → Tree
  | mk label parts _ => .node label (trees parts)

/- The trees that some drafts belong to. -/
def trees : List Draft → List Tree
  | [] => []
  | draft :: drafts => tree draft :: trees drafts

end

theorem tree_ofTree
    (source : List Char)
    (tree : Tree) :
    (ofTree source tree).tree = tree := by
  induction tree using Tree.induct with
  | hNode label children ih =>
      rw [ofTree, Draft.tree]
      congr 1
      induction children with
      | nil => rfl
      | cons child children ihChildren =>
          rw [List.forall_mem_cons] at ih
          rw [ofTrees, trees, ih.1, ihChildren ih.2]

/- A sum over the parts of a draft is one over the children. -/
theorem sum_parts_ofTree
    (source : List Char)
    (label : Label)
    (children : List Tree)
    (count : Tree → Nat) :
    ((ofTree source (.node label children)).parts.map
        fun part => count part.tree).sum =
      (children.map count).sum := by
  rw [parts_ofTree, Tree.children, List.map_map]
  congr 2
  funext child
  exact congrArg count (tree_ofTree source child)

/-
  Where there is no object and no arrow function, each node
  is built once.
-/
theorem budgeted_of_plain
    (source : List Char)
    {tree : Tree}
    (hPlain : tree.hasWrappers = false) :
    (ofTree source tree).Budgeted fun d => d.tree.subtrees.length := by
  induction tree using Tree.induct with
  | hNode label children ih =>
      rw [Tree.hasWrappers_eq_false_iff] at hPlain
      obtain ⟨⟨hObject, hArrow⟩, hBelow⟩ := hPlain
      have hParts :
          ∀ part ∈ (ofTree source (.node label children)).parts,
            part.Budgeted fun d => d.tree.subtrees.length := by
        rw [parts_ofTree, Tree.children, List.forall_mem_map]
        exact fun child hChild => ih child hChild (hBelow child hChild)
      have hLength := Tree.length_subtrees label children
      have hSum :=
        sum_parts_ofTree source label children fun t => t.subtrees.length
      have hSublist :=
        substantial_sublist (ofTree source (.node label children)).parts
      constructor
      · rw [outline_ofTree, tree_ofTree, hLength, ← hSum]
        exact size_compose_le source hParts (absurd · hObject)
          (absurd · hArrow)
      · rw [tree_ofTree, hLength, ← hSum]
        refine Nat.le_succ_of_le (sizeAll_map_le hSublist.subperm ?_)
        exact fun part hPart => (hParts part (hSublist.subset hPart)).own

end Draft

end ShapeTypes

------------------------------------------------------------
-- Drafts and Their Weight
------------------------------------------------------------

namespace ShapeTypes

open Concrete (Label Tree)

namespace Draft

/- The budget of a part, by the node that it is a part of. -/
def allowance
    (parent : Label)
    (part : Draft) :
    Nat :=
  2 * (Tree.share parent part.tree * part.tree.weight)

/-
  All that can be drawn from a draft has at most twice as
  many nodes as the draft has weight.
-/
structure Weighed
    (draft : Draft) : Prop where
  own : draft.outline.size + 1 ≤ 2 * draft.tree.weight
  inner :
    Outline.sizeAll ((substantial draft.parts).map outline) + 1 ≤
      2 * draft.tree.weight
  parameter : (parameter draft).size ≤ 2 * draft.tree.weight
  parameters :
    Outline.sizeAll ((substantial draft.parts).map Draft.parameter) ≤
      2 * draft.tree.weight
  member : (member draft).size ≤ 2 * draft.tree.weight

namespace Weighed

variable {draft : Draft}

/- The budget covers the weight. -/
theorem le_allowance
    (parent : Label)
    (draft : Draft) :
    2 * draft.tree.weight ≤ draft.allowance parent :=
  Nat.mul_le_mul_left 2
    (Nat.le_mul_of_pos_left _ (Tree.one_le_share parent draft.tree))

/- The budget of a weighed part. -/
theorem budgeted
    (hWeighed : draft.Weighed)
    (parent : Label) :
    draft.Budgeted (allowance parent) := by
  have hAllowance := le_allowance parent draft
  have hOwn := hWeighed.own
  have hInner := hWeighed.inner
  constructor
  · omega
  · omega

/- The budget of a weighed part with parameters. -/
theorem budgetedParameters
    (hWeighed : draft.Weighed)
    (parent : Label) :
    draft.BudgetedParameters (allowance parent) := by
  have hAllowance := le_allowance parent draft
  constructor
  · exact Nat.le_trans hWeighed.own hAllowance
  · exact Nat.le_trans hWeighed.parameters hAllowance

end Weighed

/- The budgets of the parts of a tree, and its weight. -/
theorem sum_allowance
    (source : List Char)
    (label : Label)
    (children : List Tree) :
    ((ofTree source (.node label children)).parts.map
        (allowance label)).sum + 2 =
      2 * (Concrete.Tree.node label children).weight := by
  have hSum :=
    sum_parts_ofTree source label children
      fun child => 2 * (Tree.share label child * child.weight)
  rw [Tree.weight, Tree.weightIn_eq, Nat.mul_succ, ← List.sum_map_mul_left]
  exact congrArg (· + 2) hSum

/-
  The budget for the name of a method.  It counts twice if
  there are nodes in it that get others around them, and
  there is enough for two without them.
-/
theorem size_name_le
    (source : List Char)
    {method : Label}
    {name : Tree}
    (hWeighed : (ofTree source name).Weighed)
    (hMethod : method.kind = "method_definition")
    (hName : name.label.field = some "name") :
    ((computedKey? (ofTree source name)).getD
          (ofTree source name)).outline.size +
        (ofTree source name).outline.size ≤
      (ofTree source name).allowance method := by
  rw [allowance, tree_ofTree]
  cases hWrappers : name.hasWrappers with
  | true =>
      have hTwice : Tree.share method name = 2 :=
        if_pos ⟨hMethod, hName, hWrappers⟩
      have hCost :
          (ofTree source name).Budgeted fun d => 2 * d.tree.weight := by
        have hOwn := hWeighed.own
        have hInner := hWeighed.inner
        constructor
        · omega
        · omega
      have hKey := size_key_le hCost
      have hOwn := hCost.own
      rw [tree_ofTree] at hKey hOwn
      -- One of the two shares pays for the key, the other for the name.
      rw [hTwice]
      omega
  | false =>
      have hCost := budgeted_of_plain source hWrappers
      have hKey := size_key_le hCost
      have hOwn := hCost.own
      rw [tree_ofTree] at hKey hOwn
      have hWeight := name.length_subtrees_le_weight
      have hShare :=
        Nat.le_mul_of_pos_left name.weight (Tree.one_le_share method name)
      omega

/- A node passes on what its children keep. -/
theorem weighed_node
    (source : List Char)
    {label : Label}
    {children : List Tree}
    (hBody : (ofTree source (.node label children)).HasBody)
    (hChildren : ∀ child ∈ children, (ofTree source child).Weighed) :
    (ofTree source (.node label children)).Weighed := by
  have hSum := sum_allowance source label children
  have hSublist :=
    substantial_sublist (ofTree source (.node label children)).parts
  have hParts :
      ∀ part ∈ (ofTree source (.node label children)).parts,
        part.Weighed := by
    rw [parts_ofTree, Tree.children, List.forall_mem_map]
    exact hChildren
  have hBudget :
      ∀ part ∈ (ofTree source (.node label children)).parts,
        part.Budgeted (allowance label) :=
    fun part hPart => (hParts part hPart).budgeted label
  have hComposed :
      (compose source label
          (ofTree source (.node label children)).parts).size ≤
        ((ofTree source (.node label children)).parts.map
          (allowance label)).sum + 1 := by
    refine size_compose_le source hBudget ?_ ?_
    · intro _ part hPart
      exact Nat.le_trans (hParts part hPart).member
        (Weighed.le_allowance label part)
    · intro hArrow
      exact ⟨Option.isSome_iff_ne_none.2 (hBody hArrow),
        fun part hPart => (hParts part hPart).budgetedParameters label⟩
  have hOwn :
      (ofTree source (.node label children)).outline.size + 1 ≤
        2 * (Concrete.Tree.node label children).weight := by
    rw [← hSum, outline_ofTree]
    exact Nat.succ_le_succ hComposed
  constructor
  · rwa [tree_ofTree]
  · rw [tree_ofTree, ← hSum]
    refine Nat.succ_le_succ (Nat.le_succ_of_le ?_)
    refine sizeAll_map_le hSublist.subperm ?_
    exact fun part hPart => (hBudget part (hSublist.subset hPart)).own
  · rw [tree_ofTree]
    exact size_parameter_le hBudget (by omega) hOwn
  · rw [tree_ofTree, ← hSum]
    refine Nat.le_add_right_of_le (sizeAll_map_le hSublist.subperm ?_)
    intro part hPart
    exact Nat.le_trans (hParts part (hSublist.subset hPart)).parameter
      (Weighed.le_allowance label part)
  · rw [tree_ofTree]
    refine size_member_le hBudget (Nat.le_of_eq hSum) hOwn ?_
    rw [parts_ofTree, Tree.children, List.forall_mem_map]
    intro child hChild hField hMethod
    rw [label_ofTree] at hField hMethod
    exact size_name_le source (hChildren child hChild) hMethod hField

/- Every draft of a tree is of its weight. -/
theorem weighed_ofTree
    (source : List Char)
    {tree : Tree}
    (hBodies : tree.ArrowsHaveBodies) :
    (ofTree source tree).Weighed := by
  induction tree using Tree.induct with
  | hNode label children ih =>
      have hBody := (everywhere_hasBody source hBodies).here
      rw [Tree.ArrowsHaveBodies, Tree.everywhere_node_iff] at hBodies
      exact weighed_node source hBody
        fun child hChild => ih child hChild (hBodies.2 child hChild)

end Draft

end ShapeTypes

------------------------------------------------------------
-- Programs
------------------------------------------------------------

namespace ShapeTypes

open Concrete (Tree)

namespace Store

theorem size_ofProgram
    (source : List Char)
    (tree : Tree) :
    (ofProgram source tree).size = (programOutline source tree).size := by
  have hSize := (ofProgram_represents source tree).size_eq
  simpa [programSite, Site.id] using hSize

/- A program has at most two nodes for each of its weight. -/
theorem size_ofProgram_le
    (source : List Char)
    {tree : Tree}
    (hBodies : tree.ArrowsHaveBodies) :
    (ofProgram source tree).size ≤ 2 * tree.weight := by
  have hInner := (Draft.weighed_ofTree source hBodies).inner
  rw [Draft.tree_ofTree, Draft.parts_ofTree, ← Draft.ofTrees_eq_map]
    at hInner
  rwa [size_ofProgram, programOutline, Outline.size_eq]

/- The ids of a program go up to its number of nodes. -/
theorem le_size_ofProgram
    {source : List Char}
    {tree : Tree}
    {id : NodeId}
    (hStored : id ∈ (ofProgram source tree).nodes) :
    id ≤ (ofProgram source tree).size := by
  have hRep := ofProgram_represents source tree
  have hBounds := hRep.mem_nodes_iff_bounds.1 hStored
  rw [← hRep.size_eq, programSite, Nat.zero_add] at hBounds
  exact hBounds.2

end Store

end ShapeTypes

------------------------------------------------------------
-- Names Within Names
------------------------------------------------------------

namespace ShapeTypes

namespace Concrete

namespace Sample

/- The name of a method, in brackets. -/
def computedName
    (start stop : Nat)
    (inner : Tree) :
    Tree :=
  named "computed_property_name" (some "name") start stop
    [token "[" start (start + 1), inner, token "]" (stop - 1) stop]

/- A method that takes nothing and does nothing. -/
def emptyMethod
    (start stop : Nat)
    (name : Tree) :
    Tree :=
  named "method_definition" none start stop
    [name,
      named "formal_parameters" (some "parameters") (stop - 4) (stop - 2)
        [token "(" (stop - 4) (stop - 3), token ")" (stop - 3) (stop - 2)],
      named "statement_block" (some "body") (stop - 2) stop
        [token "\x7b" (stop - 2) (stop - 1), token "\x7d" (stop - 1) stop]]

/-
  An object with one method, whose name holds an object with
  one method, and so on.  In the middle there is a name.
-/
def spiral : (levels : Nat) → (field : Option String) → (start : Nat) → Tree
  | 0, field, start => named "identifier" field start (start + 1) []
  | levels + 1, field, start =>
      let stop := start + 8 * levels + 9
      named "object" field start stop
        [token "\x7b" start (start + 1),
          emptyMethod (start + 1) (stop - 1)
            (computedName (start + 1) (stop - 5)
              (spiral levels none (start + 2))),
          token "\x7d" (stop - 1) stop]

/- The text of such an object. -/
def spiralText : (levels : Nat) → List Char
  | 0 => ['x']
  | levels + 1 =>
      "\x7b[".toList ++ spiralText levels ++ "]()\x7b\x7d\x7d".toList

/- A name with such an object as its value. -/
def declaredSpiral
    (levels : Nat) :
    Tree :=
  named "variable_declarator" none 6 (8 * levels + 9)
    [named "identifier" (some "name") 6 7 [], token "=" 7 8,
      spiral levels (some "value") 8]

/- The declaration of the name as a constant. -/
def spiralProgram
    (levels : Nat) :
    Tree :=
  named "program" none 0 (8 * levels + 9)
    [named "lexical_declaration" none 0 (8 * levels + 9)
      [node false "const" (some "kind") 0 5 [], declaredSpiral levels]]

/- The source of the constant. -/
def spiralSource
    (levels : Nat) :
    String :=
  String.ofList ("const o=".toList ++ spiralText levels)

example :
    (spiralProgram 3).Nested ∧
      (spiralProgram 3).Placed (spiralSource 3).toList ∧
      spiralSource 2 = "const o=\x7b[\x7b[x]()\x7b\x7d\x7d]()\x7b\x7d\x7d" := by
  decide +kernel

/- A spiral is named, and has the role that it is given. -/
theorem label_spiral
    (levels : Nat)
    (field : Option String)
    (start : Nat) :
    (spiral levels field start).label.isSubstantial = true ∧
      (spiral levels field start).label.field = field := by
  cases levels with
  | zero => exact ⟨rfl, rfl⟩
  | succ levels => exact ⟨rfl, rfl⟩

/- Between the brackets of a name there is one named part. -/
theorem substantial_computedName
    (source : List Char)
    (start stop : Nat)
    {inner : Tree}
    (hInner : inner.label.isSubstantial = true) :
    Draft.substantial
        (Draft.ofTree source (computedName start stop inner)).parts =
      [Draft.ofTree source inner] := by
  have hToken :
      ∀ kind start stop, (token kind start stop).label.isSubstantial = false :=
    fun _ _ _ => rfl
  have hParts :
      (Draft.ofTree source (computedName start stop inner)).parts =
        [token "[" start (start + 1), inner,
          token "]" (stop - 1) stop].map (Draft.ofTree source) :=
    Draft.parts_ofTree source _
  simp [hParts, Draft.substantial, hToken, hInner]

/-
  A level adds six nodes to what is inside, which is built
  twice: as the key, and as the name of the method in the
  value.
-/
theorem size_spiral_succ
    (source : List Char)
    (levels : Nat)
    (field : Option String)
    (start : Nat) :
    (Draft.ofTree source (spiral (levels + 1) field start)).outline.size =
      2 * (Draft.ofTree source
        (spiral levels none (start + 2))).outline.size + 6 := by
  let stop := start + 8 * levels + 9
  let name :=
    computedName (start + 1) (stop - 5) (spiral levels none (start + 2))
  let method := Draft.ofTree source (emptyMethod (start + 1) (stop - 1) name)
  have hName :=
    substantial_computedName source (start + 1) (stop - 5)
      (label_spiral levels none (start + 2)).1
  have hObject :
      (Draft.ofTree source (spiral (levels + 1) field start)).outline.size =
        (Draft.member method).size + 1 :=
    rfl
  have hMember :
      Draft.member method =
        Draft.property method.label (Draft.ofTree source name)
          (Draft.other method.label method.parts) true :=
    rfl
  have hKey :
      Draft.computedKey? (Draft.ofTree source name) =
        some (Draft.ofTree source (spiral levels none (start + 2))) := by
    change (Draft.substantial (Draft.ofTree source name).parts).head? = _
    rw [hName]
    rfl
  have hValue :
      Outline.sizeAll ((Draft.substantial method.parts).map Draft.outline) =
        Outline.sizeAll
            ((Draft.substantial (Draft.ofTree source name).parts).map
              Draft.outline) + 3 :=
    rfl
  rw [hObject, hMember, Draft.size_method_eq, hKey, hValue, hName]
  simp only [Option.getD_some, List.map_cons, List.map_nil, Outline.sizeAll]
  omega

/- What is built grows exponentially. -/
theorem size_spiral
    (source : List Char)
    (levels : Nat)
    (field : Option String)
    (start : Nat) :
    (Draft.ofTree source (spiral levels field start)).outline.size + 6 =
      7 * 2 ^ levels := by
  induction levels generalizing field start with
  | zero => rfl
  | succ levels ih =>
      have hInner := ih none (start + 2)
      rw [size_spiral_succ, Nat.pow_succ]
      omega

theorem size_declaredSpiral
    (source : List Char)
    (levels : Nat) :
    (Draft.ofTree source (declaredSpiral levels)).outline.size =
      (Draft.ofTree source
        (spiral levels (some "value") 8)).outline.size + 2 := by
  let name := Draft.ofTree source (named "identifier" (some "name") 6 7 [])
  let sign := Draft.ofTree source (token "=" 7 8)
  let value := Draft.ofTree source (spiral levels (some "value") 8)
  have hName : name.label.field = some "name" := rfl
  have hSign : sign.label.field = none := rfl
  have hValue : value.label.field = some "value" := by
    rw [Draft.label_ofTree]
    exact (label_spiral levels (some "value") 8).2
  have hOutline :
      (Draft.ofTree source (declaredSpiral levels)).outline =
        Draft.declarator (declaredSpiral levels).label [name, sign, value] :=
    rfl
  have hFields :
      Draft.field? [name, sign, value] "name" = some name ∧
        Draft.field? [name, sign, value] "type" = none ∧
          Draft.field? [name, sign, value] "value" = some value := by
    simp [Draft.field?, hName, hSign, hValue]
  have hLeaf : name.outline.size = 1 := rfl
  change _ = value.outline.size + 2
  rw [hOutline, Draft.declarator, hFields.1]
  dsimp only
  rw [hFields.2.1, hFields.2.2]
  simp only [Outline.binding, Option.map_none, Option.map_some,
    Option.toList_none, Option.toList_some, List.nil_append, Outline.size,
    Outline.sizeAll]
  omega

theorem size_spiralProgram
    (source : List Char)
    (levels : Nat) :
    (Store.ofProgram source (spiralProgram levels)).size + 2 =
      7 * 2 ^ levels := by
  have hProgram :
      (Store.programOutline source (spiralProgram levels)).size =
        (Draft.ofTree source (declaredSpiral levels)).outline.size + 2 :=
    rfl
  have hValue := size_spiral source levels (some "value") 8
  rw [Store.size_ofProgram, hProgram, size_declaredSpiral]
  omega

end Sample

end Concrete

end ShapeTypes

------------------------------------------------------------
-- Builders
------------------------------------------------------------

namespace ShapeTypes

open Concrete (Tree)

/- No tree is refused for the number of its nodes. -/
theorem Concrete.Tree.refusal?_ne_unstored
    (source : List Char)
    (tree : Tree)
    (cause : StoreError) :
    tree.refusal? source ≠ some (.unstored cause) := by
  rw [refusal?]
  split
  · simp
  · split
    · simp
    · simp

namespace Builder

variable {builder : Builder} {source : String} {tree : Tree}

/- There are enough ids for a tree of less than half their weight. -/
theorem size_programOutline_le_maxId
    (source : List Char)
    (hBodies : tree.ArrowsHaveBodies)
    (hSmall : tree.weight < 2 ^ 31) :
    (Store.programOutline source tree).size ≤ Store.maxId := by
  have hSize := Store.size_ofProgram_le source hBodies
  have hMax : Store.maxId = 2 * 2 ^ 31 - 1 := rfl
  rw [Store.size_ofProgram] at hSize
  rw [hMax]
  omega

/- A builder does not run out of ids where there are enough. -/
theorem build_ne_unstored
    (hReachable : builder.Reachable)
    (hInput : builder.input = some (source, tree))
    (hRoom : (Store.programOutline source.toList tree).size ≤ Store.maxId)
    (cause : StoreError) :
    builder.build.value.1 ≠ .error (.unstored cause) := by
  cases hRefusal : tree.refusal? source.toList with
  | none => simp [build_of_accepted hReachable hInput hRefusal, hRoom]
  | some refusal =>
      rw [build_of_refusal hInput hRefusal]
      rintro ⟨⟩
      exact Tree.refusal?_ne_unstored source.toList tree cause hRefusal

/-
  A builder stores at most two nodes for each node of a tree
  whose arrow functions have bodies, where the names of
  methods that hold objects or arrow functions count twice.
  So ids do not run out for a tree of less than half their
  number, if no name counts twice.
-/
theorem size_build_le
    (hReachable : builder.Reachable)
    (hInput : builder.input = some (source, tree))
    (hBodies : tree.ArrowsHaveBodies) :
    (∀ store next, builder.build.value = (.ok store, next) →
        store.size ≤ 2 * tree.weight ∧
          (tree.PlainNames → store.size ≤ 2 * tree.subtrees.length) ∧
          ∀ id ∈ store.nodes, id ≤ Store.maxId) ∧
      (tree.weight < 2 ^ 31 →
        ∀ cause, builder.build.value.1 ≠ .error (.unstored cause)) ∧
      (tree.PlainNames → tree.subtrees.length < 2 ^ 31 →
        ∀ cause, builder.build.value.1 ≠ .error (.unstored cause)) := by
  have hEnough :
      tree.weight < 2 ^ 31 →
        ∀ cause, builder.build.value.1 ≠ .error (.unstored cause) :=
    fun hSmall =>
      build_ne_unstored hReachable hInput
        (size_programOutline_le_maxId source.toList hBodies hSmall)
  refine ⟨?_, hEnough, ?_⟩
  · intro store next hBuilt
    rw [build_eq_ok_iff hReachable hInput] at hBuilt
    rcases hBuilt with ⟨-, hRoom, rfl, -⟩
    have hSize := Store.size_ofProgram_le source.toList hBodies
    refine ⟨hSize, ?_, ?_⟩
    · intro hPlain
      rwa [← Tree.weight_eq_of_plainNames hPlain]
    · intro id hStored
      rw [← Store.size_ofProgram] at hRoom
      exact Nat.le_trans (Store.le_size_ofProgram hStored) hRoom
  · intro hPlain
    rw [← Tree.weight_eq_of_plainNames hPlain]
    exact hEnough

/-
  The sample has a method with a plain name in brackets: 17
  nodes are stored for the 28 of the tree.
-/
theorem size_build_le_sample :
    (Store.ofProgram Concrete.Sample.source.toList
        Concrete.Sample.tree).size = 17 ∧
      Concrete.Sample.tree.subtrees.length = 28 ∧
      Concrete.Sample.tree.PlainNames ∧
      (Store.ofProgram Concrete.Sample.source.toList
          Concrete.Sample.tree).size ≤
        2 * Concrete.Sample.tree.subtrees.length ∧
      (∀ id ∈ (Store.ofProgram Concrete.Sample.source.toList
          Concrete.Sample.tree).nodes,
        id ≤ Store.maxId) ∧
      ∀ cause,
        (({ } : Builder).addSource Concrete.Sample.source
            Concrete.Sample.tree).build.value.1 ≠
          .error (.unstored cause) := by
  have hReachable :=
    Reachable.new.addSource Concrete.Sample.source Concrete.Sample.tree
  have hBuilt := (build_eq_ok_iff hReachable rfl).2
    ⟨(by decide +kernel :
        Concrete.Sample.tree.refusal? Concrete.Sample.source.toList = none),
      by decide +kernel, rfl, rfl⟩
  have hPlain : Concrete.Sample.tree.PlainNames := by decide +kernel
  obtain ⟨hStored, -, hEnough⟩ :=
    size_build_le hReachable rfl (by decide +kernel)
  obtain ⟨-, hSize, hIds⟩ := hStored _ _ hBuilt
  exact ⟨by decide +kernel, by decide +kernel, hPlain, hSize hPlain, hIds,
    hEnough hPlain (by decide +kernel)⟩

/-
  Names within names are built again on each level.  With
  five levels, 222 nodes are stored for a tree of 72, and
  with thirty levels there are not enough ids for a tree of
  397 nodes.
-/
theorem size_build_spiral :
    (∀ levels ∈ [5, 30],
        (Concrete.Sample.spiralProgram levels).refusal?
            (Concrete.Sample.spiralSource levels).toList = none ∧
          (Concrete.Sample.spiralProgram levels).ArrowsHaveBodies) ∧
      (Concrete.Sample.spiralProgram 5).subtrees.length = 72 ∧
      (({ } : Builder).addSource (Concrete.Sample.spiralSource 5)
          (Concrete.Sample.spiralProgram 5)).build.value.1 =
        .ok (Store.ofProgram (Concrete.Sample.spiralSource 5).toList
          (Concrete.Sample.spiralProgram 5)) ∧
      (Store.ofProgram (Concrete.Sample.spiralSource 5).toList
        (Concrete.Sample.spiralProgram 5)).size = 222 ∧
      (Concrete.Sample.spiralProgram 30).subtrees.length = 397 ∧
      (({ } : Builder).addSource (Concrete.Sample.spiralSource 30)
          (Concrete.Sample.spiralProgram 30)).build.value.1 =
        .error (.unstored .idsExhausted) := by
  have hAccepted :
      ∀ levels ∈ [5, 30],
        (Concrete.Sample.spiralProgram levels).refusal?
            (Concrete.Sample.spiralSource levels).toList = none ∧
          (Concrete.Sample.spiralProgram levels).ArrowsHaveBodies := by
    decide +kernel
  have hBuilt (levels : Nat) (hLevels : levels ∈ [5, 30]) :=
    build_of_accepted
      (Reachable.new.addSource (Concrete.Sample.spiralSource levels)
        (Concrete.Sample.spiralProgram levels))
      rfl (hAccepted levels hLevels).1
  have hSize (levels : Nat) :=
    Concrete.Sample.size_spiralProgram
      (Concrete.Sample.spiralSource levels).toList levels
  have hFive := hSize 5
  have hThirty := hSize 30
  have hMax : Store.maxId = 2 ^ 32 - 1 := rfl
  refine ⟨hAccepted, by decide +kernel, ?_, by omega,
    by decide +kernel, ?_⟩
  · rw [hBuilt 5 (by decide), if_pos]
    rw [Store.size_ofProgram] at hFive
    rw [hMax]
    omega
  · rw [hBuilt 30 (by decide), if_neg]
    rw [Store.size_ofProgram] at hThirty
    rw [hMax]
    omega

end Builder

end ShapeTypes
