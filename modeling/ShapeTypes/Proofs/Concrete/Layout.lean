import Mathlib.Data.List.Basic
import ShapeTypes.Concrete.Tree
import ShapeTypes.Proofs.Span
import ShapeTypes.Proofs.Text.Position

/-
  What a parser promises about the trees that it returns.

  Key definitions include:
    * `ShapeTypes.Concrete.Tree.subtrees`
    * `ShapeTypes.Concrete.Tree.Everywhere`
    * `ShapeTypes.Concrete.Tree.Nested`
    * `ShapeTypes.Concrete.Tree.Placed`
    * `ShapeTypes.Concrete.Tree.ArrowsHaveBodies`
    * `ShapeTypes.Concrete.Tree.TokensAreLeaves`

  Key theorems include:
    * `ShapeTypes.Concrete.Tree.induct`
    * `ShapeTypes.Concrete.Tree.everywhere_node_iff`
-/

------------------------------------------------------------
-- Subtrees
------------------------------------------------------------

namespace ShapeTypes

namespace Concrete

namespace Tree

/- What passes from the children to every tree holds of all trees. -/
theorem induct
    {motive : Tree → Prop}
    (hNode :
      ∀ label children,
        (∀ child ∈ children, motive child) →
          motive (node label children)) :
    ∀ tree, motive tree
  | node label children =>
      hNode label children fun child _ => induct hNode child

mutual

/- A tree and all trees below it, in pre-order. -/
def subtrees : Tree → List Tree
  | node label children => node label children :: subtreesIn children

/- Some trees and all trees below them, in pre-order. -/
def subtreesIn : List Tree → List Tree
  | [] => []
  | tree :: trees => subtrees tree ++ subtreesIn trees

end

theorem mem_subtreesIn
    {tree : Tree}
    {trees : List Tree} :
    tree ∈ subtreesIn trees ↔ ∃ t ∈ trees, tree ∈ t.subtrees := by
  induction trees with
  | nil => simp [subtreesIn]
  | cons t trees ih => simp [subtreesIn, ih]

/- A property of a tree and of all trees below it. -/
def Everywhere
    (property : Tree → Prop)
    (tree : Tree) : Prop :=
  ∀ t ∈ tree.subtrees, property t

instance
    (property : Tree → Prop)
    [DecidablePred property]
    (tree : Tree) :
    Decidable (tree.Everywhere property) :=
  inferInstanceAs (Decidable (∀ t ∈ tree.subtrees, property t))

theorem everywhere_node_iff
    {property : Tree → Prop}
    {label : Label}
    {children : List Tree} :
    (node label children).Everywhere property ↔
      property (node label children) ∧
        ∀ child ∈ children, child.Everywhere property := by
  simp only [Everywhere, subtrees, List.mem_cons, forall_eq_or_imp,
    mem_subtreesIn]
  constructor
  · rintro ⟨hTop, hBelow⟩
    exact ⟨hTop, fun child hChild t ht => hBelow t ⟨child, hChild, ht⟩⟩
  · rintro ⟨hTop, hBelow⟩
    exact ⟨hTop, fun t ⟨child, hChild, ht⟩ => hBelow child hChild t ht⟩

end Tree

end Concrete

end ShapeTypes

------------------------------------------------------------
-- Promises of a Parser
------------------------------------------------------------

namespace ShapeTypes

namespace Concrete

/- A byte offset of a source is at a position of a node span. -/
def IsAt
    (source : List Char)
    (offset : Nat)
    (p : Position) : Prop :=
  ∀ parts ∈ Text.splitAt? offset source,
    p = ⟨(Position.after parts.1).line + 1, (Position.after parts.1).column⟩

instance
    (source : List Char)
    (offset : Nat)
    (p : Position) :
    Decidable (IsAt source offset p) := by
  unfold IsAt
  infer_instance

namespace Tree

/- The children lie inside the node, one behind the other. -/
def HoldsChildren
    (tree : Tree) : Prop :=
  (∀ child ∈ tree.children,
      child.label.location.Inside tree.label.location) ∧
    tree.children.Pairwise fun a b =>
      a.label.location.stop ≤ b.label.location.start

instance : DecidablePred HoldsChildren := fun tree => by
  unfold HoldsChildren
  infer_instance

/-
  The children of every node lie inside it, one behind the
  other.
-/
def Nested : Tree → Prop :=
  Everywhere HoldsChildren

/-
  The lines and columns of every node are the positions of
  its byte offsets.
-/
def Placed
    (source : List Char) :
    Tree → Prop :=
  Everywhere fun tree =>
    IsAt source tree.label.location.offsetStart tree.label.location.start ∧
      IsAt source tree.label.location.offsetEnd tree.label.location.stop

/- Every arrow function has a body. -/
def ArrowsHaveBodies : Tree → Prop :=
  Everywhere fun tree =>
    tree.label.kind = "arrow_function" →
      ∃ child ∈ tree.children, child.label.field = some "body"

/- Only named nodes have children. -/
def TokensAreLeaves : Tree → Prop :=
  Everywhere fun tree =>
    tree.label.isNamed = false → tree.children = []

instance : DecidablePred Nested := fun tree =>
  inferInstanceAs (Decidable (tree.Everywhere HoldsChildren))

instance
    (source : List Char) :
    DecidablePred (Placed source) := fun tree => by
  unfold Placed
  infer_instance

instance : DecidablePred ArrowsHaveBodies := fun tree => by
  unfold ArrowsHaveBodies
  infer_instance

instance : DecidablePred TokensAreLeaves := fun tree => by
  unfold TokensAreLeaves
  infer_instance

end Tree

end Concrete

end ShapeTypes

------------------------------------------------------------
-- A Tree That Keeps the Promises
------------------------------------------------------------

namespace ShapeTypes

namespace Concrete

namespace Sample

/- A node of a text of one line. -/
def node
    (isNamed : Bool)
    (kind : String)
    (field : Option String)
    (start stop : Nat)
    (children : List Tree) :
    Tree :=
  .node
    ⟨kind, field, isNamed, false, false, false,
      ⟨start, stop, 1, start, 1, stop⟩⟩
    children

/- A named node. -/
def named : String → Option String → Nat → Nat → List Tree → Tree :=
  node true

/- A token. -/
def token
    (kind : String)
    (start stop : Nat) :
    Tree :=
  node false kind none start stop []

/-
  A declaration with an annotation, and an annotation inside
  the computed name of a method.
-/
def source : String :=
  "let é: any = \x7b[1 as any]() \x7b\x7d\x7d"

/- The placeholder as a type. -/
def placeholder
    (start stop : Nat) :
    Tree :=
  named "predefined_type" none start stop [token "any" start stop]

/- The method with its computed name. -/
def method : Tree :=
  named "method_definition" none 15 30
    [named "computed_property_name" (some "name") 15 25
      [token "[" 15 16,
        named "as_expression" none 16 24
          [named "number" none 16 17 [], token "as" 18 20,
            placeholder 21 24],
        token "]" 24 25],
      named "formal_parameters" (some "parameters") 25 27
        [token "(" 25 26, token ")" 26 27],
      named "statement_block" (some "body") 28 30
        [token "\x7b" 28 29, token "\x7d" 29 30]]

/- The tree of the source. -/
def tree : Tree :=
  named "program" none 0 31
    [named "lexical_declaration" none 0 31
      [token "let" 0 3,
        named "variable_declarator" none 4 31
          [named "identifier" (some "name") 4 6 [],
            named "type_annotation" (some "type") 6 11
              [token ":" 6 7, placeholder 8 11],
            token "=" 12 13,
            named "object" (some "value") 14 31
              [token "\x7b" 14 15, method, token "\x7d" 30 31]]]]

example :
    tree.Nested ∧ tree.Placed source.toList ∧
      tree.ArrowsHaveBodies ∧ tree.TokensAreLeaves := by
  decide +kernel

end Sample

end Concrete

end ShapeTypes
