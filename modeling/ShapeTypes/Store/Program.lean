import ShapeTypes.Draft.Basic
import ShapeTypes.Concrete.Refusal
import ShapeTypes.Log

/-
  The store of a whole program.

  Key definitions include:
    * `ShapeTypes.Store.programOutline`
    * `ShapeTypes.Store.addProgram`
    * `ShapeTypes.Builder`
    * `ShapeTypes.Builder.build`
    * `ShapeTypes.Store.build`
-/

namespace ShapeTypes

open Concrete (Tree)

namespace Store

/- The outline of a program: its top node above its statements. -/
def programOutline
    (source : List Char)
    (tree : Tree) :
    Outline :=
  .listing tree.label.location .program
    ((Draft.substantial (Draft.ofTrees source tree.children)).map
      Draft.outline)

/- Store a program behind what is stored, and make it the root. -/
def addProgram
    (store : Store)
    (source : List Char)
    (tree : Tree) :
    Except StoreError Store :=
  match (programOutline source tree).write store with
  | (.ok root, store) => .ok (store.setRoot root)
  | (.error cause, _) => .error cause

end Store

------------------------------------------------------------
-- Builders
------------------------------------------------------------

/-
  A builder holds the nodes stored so far, and the source
  that is to be built with its concrete tree.
-/
structure Builder where
  store : Store := Store.empty
  input : Option (String × Tree) := none

namespace Builder

/- Give a builder a source, in place of an earlier one. -/
def addSource
    (builder : Builder)
    (source : String)
    (tree : Tree) :
    Builder :=
  { builder with input := some (source, tree) }

/-
  The store of the source, or the reason why there is none.
  A store that is handed out leaves an empty one behind, and
  one that runs out of ids is given up.  A builder without a
  source has a top node without a kind.
-/
def build
    (builder : Builder) :
    Logged (Except Refusal Store × Builder) := do
  match builder.input with
  | none => pure (.error (.unexpectedRoot "<none>"), builder)
  | some (source, tree) =>
      match tree.refusal? source.toList with
      | some (.faulty location snippet total) => do
          Logged.noteAll
            (tree.reportedFaults.map fun label =>
              .fault label.location label.kind)
          pure (.error (.faulty location snippet total), builder)
      | some refusal => pure (.error refusal, builder)
      | none =>
          match builder.store.addProgram source.toList tree with
          | .ok store => do
              Logged.note (.built store.size)
              pure (.ok store, { builder with store := Store.empty })
          | .error cause => pure (.error (.unstored cause), builder)

end Builder

/-
  The store for a concrete tree of a source, or the reason
  why there is none, from a builder of its own.
-/
def Store.build
    (source : String)
    (tree : Option Tree) :
    Logged (Except Refusal Store) :=
  (·.1) <$> Builder.build { input := tree.map fun tree => (source, tree) }

end ShapeTypes
