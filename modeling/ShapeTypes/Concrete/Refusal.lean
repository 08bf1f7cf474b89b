import ShapeTypes.Concrete.Tree
import ShapeTypes.Store.Basic

/-
  Concrete trees that are refused.

  A tree is refused when its top is not a program, when the
  parser found errors in it, or when named nodes are nested
  too deeply.  The reasons are looked for in this order.  A
  tree that is not refused may still have too many nodes for
  a store.

  Key definitions include:
    * `ShapeTypes.Refusal`
    * `ShapeTypes.Refusal.message`
    * `ShapeTypes.Concrete.Tree.stackedFaults`
    * `ShapeTypes.Concrete.Tree.stackedTooDeep?`
    * `ShapeTypes.Concrete.Tree.refusal?`
-/

namespace ShapeTypes

------------------------------------------------------------
-- Reasons
------------------------------------------------------------

/- Why there is no syntax tree for a source. -/
inductive Refusal where
  | noTree
  | unexpectedRoot (kind : String)
  | faulty (location : Location) (snippet : String) (total : Nat)
  | tooDeep (location : Location)
  | unstored (cause : StoreError)
deriving DecidableEq, Repr

/- How many levels of named nodes may lie below the top. -/
def nestingLimit : Nat :=
  256

/- The text that reports a reason. -/
def Refusal.message : Refusal → String
  | noTree => "failed to parse source code"
  | unexpectedRoot kind =>
      "expected a root node of kind `program`, found `" ++ kind ++ "`"
  | faulty location snippet total =>
      "syntax error at " ++ location.render ++ " near '" ++ snippet ++ "' ("
        ++ toString total ++ " error(s) in total)"
  | tooDeep location =>
      "source nests deeper than " ++ toString nestingLimit ++ " levels at "
        ++ location.render
  | unstored cause => cause.message

namespace Concrete

namespace Tree

------------------------------------------------------------
-- Stacks
------------------------------------------------------------

/- Put items on a stack one after the other: the last is on top. -/
def pile
    {α : Type}
    (items stack : List α) :
    List α :=
  items.foldl (fun stack item => item :: stack) stack

theorem pile_eq
    {α : Type}
    (items stack : List α) :
    pile items stack = items.reverse ++ stack := by
  induction items generalizing stack with
  | nil => rfl
  | cons item items ih =>
      rw [pile, List.foldl_cons, ← pile, ih, List.reverse_cons,
        List.append_assoc]
      rfl

------------------------------------------------------------
-- Errors in the Source
------------------------------------------------------------

/-
  The error nodes that are met when a stack of trees is worked
  off.  What lies below an error node belongs to that error,
  and trees that are not marked are passed over.  Children are
  put on the stack from the last on, so the first is on top.
-/
def stackedFaults : (stack : List Tree) → List Label
  | [] => []
  | tree :: stack =>
      if tree.label.isFault then
        tree.label :: stackedFaults stack
      else if tree.label.isFaulty then
        stackedFaults (pile tree.children.reverse stack)
      else
        stackedFaults stack
termination_by stack => sizeAll stack
decreasing_by
  · simp only [sizeAll, size_eq]
    omega
  · simp only [pile_eq, List.reverse_reverse, sizeAll_append, sizeAll,
      size_eq]
    omega
  · simp only [sizeAll, size_eq]
    omega

/- The errors that a whole tree reports. -/
def reportedFaults
    (tree : Tree) :
    List Label :=
  if tree.label.isFaulty then stackedFaults [tree] else []

/- The most characters of an error that a report quotes. -/
def snippetLength : Nat :=
  30

/- The start of the text of a node. -/
def snippet
    (source : List Char)
    (label : Label) :
    String :=
  String.ofList ((label.text source).toList.take snippetLength)

------------------------------------------------------------
-- Nesting
------------------------------------------------------------

/-
  The first node that is too deep when a stack of trees with
  their depths is worked off.  Named children are put on the
  stack in order, so the last is looked at first.
-/
def stackedTooDeep? : (stack : List (Tree × Nat)) → Option Location
  | [] => none
  | (tree, depth) :: stack =>
      if nestingLimit < depth then
        some tree.label.location
      else
        let below := tree.children.filter (·.label.isNamed)
        stackedTooDeep? (pile (below.map (·, depth + 1)) stack)
termination_by stack => sizeAll (stack.map Prod.fst)
decreasing_by
  have hBelow :=
    sizeAll_filter_le (fun child => child.label.isNamed) tree.children
  have hSame (trees : List Tree) :
      (trees.map (·, depth + 1)).map Prod.fst = trees := by
    rw [List.map_map]
    exact List.map_id trees
  simp only [pile_eq, List.map_append, List.map_reverse, hSame,
    sizeAll_append, sizeAll_reverse, List.map_cons, sizeAll, size_eq]
  omega

------------------------------------------------------------
-- Refusal
------------------------------------------------------------

/- Why a tree of a source is refused, if it is. -/
def refusal?
    (source : List Char)
    (tree : Tree) :
    Option Refusal :=
  if tree.label.kind ≠ "program" then
    some (.unexpectedRoot tree.label.kind)
  else
    match tree.reportedFaults with
    | first :: rest =>
        some (.faulty first.location (snippet source first) (rest.length + 1))
    | [] => (stackedTooDeep? [(tree, 0)]).map .tooDeep

end Tree

end Concrete

end ShapeTypes
