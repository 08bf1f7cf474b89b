import ShapeTypes.Log
import ShapeTypes.Placeholder
import ShapeTypes.Store.Basic
import ShapeTypes.Text.Blank

/-
  The node whose type belongs at a selection.

  A selection usually lies on an annotation, which has no
  type of its own.  The value that it describes is found
  through the parent links.

  Key definitions include:
    * `ShapeTypes.Target`
    * `ShapeTypes.Target.node?`
    * `ShapeTypes.Store.annotated?`
    * `ShapeTypes.Store.target`
-/

namespace ShapeTypes

------------------------------------------------------------
-- Targets
------------------------------------------------------------

/-
  What a selection is about: an annotation, with the node
  that it describes if there is one, or an expression.
-/
inductive Target where
  | ascription (described : Option NodeId)
  | expression (id : NodeId)
deriving DecidableEq, Repr

/- The node to infer. -/
def Target.node? : Target → Option NodeId
  | ascription described => described
  | expression id => some id

------------------------------------------------------------
-- Resolution
------------------------------------------------------------

namespace Store

/-
  What an annotation describes, by the node that owns it:
  the declarator it stands in, the operand of `as`, or the
  expression that an arrow function returns.
-/
def annotated?
    (ascription : NodeId)
    (owner : Node) :
    Option NodeId :=
  match owner.kind with
  | .variableDeclarator _ (some type) _ =>
      if type = ascription then some owner.id else none
  | .asExpression expression type =>
      if type = ascription then some expression else none
  | .arrowFunction _ (.expression body) (some type) =>
      if type = ascription then some body else none
  | _ => none

/- The target of a bare placeholder. -/
def placeholderTarget
    (store : Store)
    (node : Node)
    (id : NodeId) :
    Logged Target :=
  match node.parent.bind store.find? with
  | none => do
      Logged.note (.noParent id)
      pure (.ascription none)
  | some owner =>
      match annotated? id owner with
      | some described => pure (.ascription (some described))
      | none => do
          Logged.note (.unsupportedOwner owner.kind.name owner.location)
          pure (.ascription none)

/- The target of a selection that lies on a node. -/
def target
    (store : Store)
    (id : NodeId) :
    Logged Target :=
  match store.find? id with
  | none => pure (.ascription none)
  | some node =>
      match node.kind with
      | .ascription text =>
          if Text.trim text = Placeholder.word then
            store.placeholderTarget node id
          else do
            Logged.note (.notPlaceholder text node.location)
            pure (.ascription none)
      | _ => pure (.expression id)

end Store

end ShapeTypes
