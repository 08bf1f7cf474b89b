import ShapeTypes.Json.Value
import ShapeTypes.TreeTable

/-
  Concrete trees written as JSON.

  A listing has a line for each source: an object with the
  dialect, the source, and the rows of its tree.  A row is
  an array of the kind, the field, the flags, the first and
  last byte, the first and last row and column, and the
  number of children.

  Key definitions include:
    * `ShapeTypes.TreeEntry.ofJson?`
    * `ShapeTypes.TreeTable.ofListing?`
-/

namespace ShapeTypes

------------------------------------------------------------
-- Rows
------------------------------------------------------------

namespace Concrete

/- The numbers of a row behind its kind and field. -/
def Row.naturals? :
    List Json → Option (List Nat)
  | [] => some []
  | .number (.natural n) :: rest => (naturals? rest).map (n :: ·)
  | _ => none

/-
  A row from its kind, field and numbers.  Rows are counted
  from zero, and the bits of the flags say that a node is
  named, an error, missing, or faulty.
-/
def Row.ofParts?
    (kind : String)
    (field : Option String) :
    List Nat → Option Row
  | [flags, startByte, endByte, startRow, startColumn, endRow, endColumn,
      childCount] =>
      some
        { label :=
            { kind := kind
              field := field
              isNamed := flags.testBit 0
              isError := flags.testBit 1
              isMissing := flags.testBit 2
              isFaulty := flags.testBit 3
              location :=
                { offsetStart := startByte
                  offsetEnd := endByte
                  startLine := startRow + 1
                  startColumn := startColumn
                  endLine := endRow + 1
                  endColumn := endColumn } }
          childCount := childCount }
  | _ => none

/- A row as an array. -/
def Row.ofJson? : Json → Option Row
  | .array (.string (some kind) :: .null :: numbers) =>
      (Row.naturals? numbers).bind (Row.ofParts? kind none)
  | .array (.string (some kind) :: .string (some field) :: numbers) =>
      (Row.naturals? numbers).bind (Row.ofParts? kind (some field))
  | _ => none

end Concrete

------------------------------------------------------------
-- Listings
------------------------------------------------------------

/- The dialect that a word names. -/
def Dialect.ofText? : String → Option Dialect
  | "ts" => some ts
  | "tsx" => some tsx
  | "js" => some js
  | _ => none

/- The field of an object. -/
def Json.field?
    (key : String) :
    Json → Option Json
  | .object fields => List.lookup (some key) fields
  | _ => none

/- One line of a listing. -/
def TreeEntry.ofJson?
    (json : Json) :
    Option TreeEntry := do
  let .string (some dialect) ← json.field? "language" | none
  let .string (some source) ← json.field? "source" | none
  let .array rows ← json.field? "rows" | none
  let tree ← Concrete.Tree.ofRows? (← rows.mapM Concrete.Row.ofJson?)
  pure
    { dialect := ← Dialect.ofText? dialect
      source := source
      tree := tree }

/- A whole listing. -/
def TreeTable.ofListing?
    (lines : List String) :
    Option TreeTable :=
  (lines.filter (· ≠ "")).mapM fun line =>
    (Json.read? line).bind TreeEntry.ofJson?

end ShapeTypes
