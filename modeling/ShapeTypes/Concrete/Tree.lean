import ShapeTypes.Span
import ShapeTypes.Text.Offset

/-
  Concrete syntax trees, as a parser returns them.

  Tokens, comments and error nodes are all in the tree.  A
  tree is written down as its nodes in pre-order, each with
  its number of children.

  Key definitions include:
    * `ShapeTypes.Concrete.Label`
    * `ShapeTypes.Concrete.Tree`
    * `ShapeTypes.Concrete.Row`
    * `ShapeTypes.Concrete.Tree.ofRows?`
-/

namespace ShapeTypes

namespace Concrete

------------------------------------------------------------
-- Labels
------------------------------------------------------------

/-
  What a parser says about one node.  `field` is the role
  that the node has in its parent.  `isFaulty` says that
  there is an error at the node or below it.
-/
structure Label where
  kind : String
  field : Option String
  isNamed : Bool
  isError : Bool
  isMissing : Bool
  isFaulty : Bool
  location : Location
deriving DecidableEq, Repr

namespace Label

/-
  The text of a node.  It is empty when the span does not
  cut the source between characters.
-/
def text
    (source : List Char)
    (label : Label) :
    String :=
  match Text.slice? label.location.offsetStart label.location.offsetEnd
      source with
  | some cs => String.ofList cs
  | none => ""

/- A node that stands for an error in the source. -/
def isFault
    (label : Label) :
    Bool :=
  label.isError || label.isMissing

/- A named node other than a comment. -/
def isSubstantial
    (label : Label) :
    Bool :=
  label.isNamed && label.kind != "comment"

end Label

------------------------------------------------------------
-- Trees
------------------------------------------------------------

/- A labelled node above the trees of its children. -/
inductive Tree where
  | node (label : Label) (children : List Tree)

namespace Tree

/- What the parser says about the top node. -/
def label : Tree → Label
  | node label _ => label

/- The trees below the top node. -/
def children : Tree → List Tree
  | node _ children => children

/- The tree reached by going down to the numbered children. -/
def descendant? : Tree → List Nat → Option Tree
  | tree, [] => some tree
  | tree, index :: path =>
      match tree.children[index]? with
      | some child => descendant? child path
      | none => none

mutual

/- The number of nodes of a tree. -/
def size : Tree → Nat
  | node _ children => sizeAll children + 1

def sizeAll : List Tree → Nat
  | [] => 0
  | tree :: trees => size tree + sizeAll trees

end

theorem size_eq
    (tree : Tree) :
    tree.size = sizeAll tree.children + 1 := by
  cases tree
  rfl

theorem sizeAll_append
    (trees others : List Tree) :
    sizeAll (trees ++ others) = sizeAll trees + sizeAll others := by
  induction trees with
  | nil => simp [sizeAll]
  | cons tree trees ih =>
      rw [List.cons_append, sizeAll, sizeAll, ih, Nat.add_assoc]

theorem sizeAll_reverse
    (trees : List Tree) :
    sizeAll trees.reverse = sizeAll trees := by
  induction trees with
  | nil => rfl
  | cons tree trees ih =>
      rw [List.reverse_cons, sizeAll_append, ih, sizeAll, sizeAll, sizeAll,
        Nat.add_zero, Nat.add_comm]

theorem sizeAll_filter_le
    (test : Tree → Bool)
    (trees : List Tree) :
    sizeAll (trees.filter test) ≤ sizeAll trees := by
  induction trees with
  | nil => exact Nat.le_refl _
  | cons tree trees ih =>
      rw [List.filter_cons]
      split
      · exact Nat.add_le_add_left ih _
      · exact Nat.le_trans ih (Nat.le_add_left _ _)

end Tree

------------------------------------------------------------
-- Rows
------------------------------------------------------------

/- A label together with the number of children. -/
structure Row where
  label : Label
  childCount : Nat
deriving DecidableEq, Repr

namespace Tree

/-
  Put a row in front of trees that are already complete: it
  takes the first of them as its children.
-/
def graft
    (row : Row)
    (trees : List Tree) :
    List Tree :=
  node row.label (trees.take row.childCount) :: trees.drop row.childCount

/- The tree whose nodes in pre-order are the rows. -/
def ofRows?
    (rows : List Row) :
    Option Tree :=
  match rows.foldr graft [] with
  | [tree] => some tree
  | _ => none

end Tree

end Concrete

end ShapeTypes
