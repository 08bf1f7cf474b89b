import ShapeTypes.Store.Parents
import ShapeTypes.Store.Program

/-
  From a source text to its store of nodes.

  Concrete trees come from a table that stands for the
  parser.

  Key definitions include:
    * `ShapeTypes.Dialect`
    * `ShapeTypes.TreeTable`
    * `ShapeTypes.TreeTable.find?`
    * `ShapeTypes.TreeTable.parse`
    * `ShapeTypes.TreeTable.parseLinked`
-/

namespace ShapeTypes

open Concrete (Tree)

------------------------------------------------------------
-- Tables of Trees
------------------------------------------------------------

/- The dialects that a source can be parsed in. -/
inductive Dialect where
  | ts
  | tsx
  | js
deriving DecidableEq, Repr

/- The concrete tree of one source. -/
structure TreeEntry where
  dialect : Dialect
  source : String
  tree : Tree

/- The concrete trees of some sources. -/
abbrev TreeTable :=
  List TreeEntry

namespace TreeTable

/- The concrete tree of a source. -/
def find?
    (table : TreeTable)
    (dialect : Dialect)
    (source : String) :
    Option Tree :=
  (List.find?
      (fun entry : TreeEntry =>
        entry.dialect == dialect && entry.source == source)
      table).map (·.tree)

------------------------------------------------------------
-- Parsing
------------------------------------------------------------

/- The store of a source, without parent links. -/
def parse
    (table : TreeTable)
    (source : String) :
    Logged (Except Refusal Store) :=
  match table.find? .ts source with
  | none => pure (.error .noTree)
  | some tree => Store.build source (some tree)

/- The store of a source, with parent links. -/
def parseLinked
    (table : TreeTable)
    (source : String) :
    Logged (Except Refusal Store) := do
  match ← table.parse source with
  | .error refusal => pure (.error refusal)
  | .ok store => .ok <$> store.link

/- A source with an accepted tree has a linked store. -/
theorem value_parseLinked
    {table : TreeTable}
    {source : String}
    {tree : Tree}
    {store : Store}
    (hTree : table.find? .ts source = some tree)
    (hBuilt : (Store.build source (some tree)).value = .ok store) :
    (table.parseLinked source).value = .ok store.link.value := by
  simp [parseLinked, parse, hTree, hBuilt]

end TreeTable

end ShapeTypes
