import ShapeTypes.Span

/-
  Edits of a text.

  Every edit addresses the text as it was before any of
  them.  They are put in order of their ranges and applied
  from the last to the first, so that an edit never moves a
  range that is still to be replaced.

  Key definitions include:
    * `ShapeTypes.TextEdit`
    * `ShapeTypes.EditError`
    * `ShapeTypes.TextEdit.resolve`
    * `ShapeTypes.TextEdit.applyAll`
-/

namespace ShapeTypes

------------------------------------------------------------
-- Edits and Their Failures
------------------------------------------------------------

/- Put `newText` in place of the text in `range`. -/
structure TextEdit where
  range : SourceRange
  newText : String
deriving DecidableEq, Repr

/- Why edits cannot be applied. -/
inductive EditError where
  | startOutside (range : SourceRange)
  | endOutside (range : SourceRange)
  | reversed (range : SourceRange)
  | overlap (earlier later : SourceRange)
deriving DecidableEq, Repr

/- The text that reports a failure. -/
def EditError.message : EditError → String
  | startOutside range =>
      "edit start " ++ range.render ++ " is outside the source"
  | endOutside range =>
      "edit end " ++ range.render ++ " is outside the source"
  | reversed range => "edit range " ++ range.render ++ " is reversed"
  | overlap earlier later =>
      "edit " ++ earlier.render ++ " overlaps edit " ++ later.render

/- An edit with the byte offsets of its range. -/
structure ResolvedEdit where
  start : Nat
  stop : Nat
  edit : TextEdit
deriving DecidableEq, Repr

namespace ResolvedEdit

/- Edits are ordered by where they start, then by where they end. -/
def before
    (a b : ResolvedEdit) :
    Bool :=
  a.start < b.start || a.start == b.start && a.stop ≤ b.stop

/- The first two neighbours of which one reaches into the other. -/
def firstOverlap? :
    List ResolvedEdit → Option (ResolvedEdit × ResolvedEdit)
  | a :: b :: rest =>
      if b.start < a.stop then some (a, b) else firstOverlap? (b :: rest)
  | _ => none

/- Replace the range of one edit. -/
def replaceIn
    (e : ResolvedEdit)
    (cs : List Char) :
    List Char :=
  Text.replaceRange e.start e.stop e.edit.newText.toList cs

end ResolvedEdit

------------------------------------------------------------
-- Application
------------------------------------------------------------

namespace TextEdit

/- Find the byte offsets of an edit. -/
def resolve
    (source : String)
    (edit : TextEdit) :
    Except EditError ResolvedEdit :=
  match edit.range.start.offset? source, edit.range.stop.offset? source with
  | none, _ => .error (.startOutside edit.range)
  | some _, none => .error (.endOutside edit.range)
  | some start, some stop =>
      if stop < start then
        .error (.reversed edit.range)
      else
        .ok ⟨start, stop, edit⟩

/- Find the byte offsets of all edits, or the first failure. -/
def resolveAll
    (source : String) :
    List TextEdit → Except EditError (List ResolvedEdit)
  | [] => .ok []
  | edit :: edits =>
      match resolve source edit with
      | .error e => .error e
      | .ok first =>
          match resolveAll source edits with
          | .error e => .error e
          | .ok rest => .ok (first :: rest)

/- Apply edits to a text. -/
def applyAll
    (source : String)
    (edits : List TextEdit) :
    Except EditError String :=
  match resolveAll source edits with
  | .error e => .error e
  | .ok resolved =>
      let ordered := resolved.mergeSort ResolvedEdit.before
      match ResolvedEdit.firstOverlap? ordered with
      | some (a, b) => .error (.overlap a.edit.range b.edit.range)
      | none =>
          .ok (String.ofList
            (ordered.foldr ResolvedEdit.replaceIn source.toList))

end TextEdit

end ShapeTypes
