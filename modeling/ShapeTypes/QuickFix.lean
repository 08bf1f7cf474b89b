import ShapeTypes.Descriptor.Render
import ShapeTypes.Inference.Engine
import ShapeTypes.Placeholder
import ShapeTypes.TreeTable
import ShapeTypes.Store.Locate
import ShapeTypes.Target
import ShapeTypes.Text.Edit

/-
  Inference at a selection, and fixes for placeholders.

  Key definitions include:
    * `ShapeTypes.Engine.inferIn`
    * `ShapeTypes.Engine.tryInferAt`
    * `ShapeTypes.Engine.inferAt`
    * `ShapeTypes.QuickFix`
    * `ShapeTypes.Engine.quickFixes`
-/

namespace ShapeTypes

------------------------------------------------------------
-- Inference at a Selection
------------------------------------------------------------

namespace Engine

/- The type of a target that may be missing. -/
def inferTarget
    (engine : Engine)
    (store : Store) :
    Option NodeId → Logged Descriptor
  | some id => engine.inferLogged store id
  | none => pure .unknown

/- The type that belongs at a selection of a linked store. -/
def inferIn
    (engine : Engine)
    (store : Store)
    (range : SourceRange) :
    Logged Descriptor :=
  match store.root with
  | none => pure .unknown
  | some root => do
      match ← store.locate range root with
      | none => do
          Logged.note (.notFound range)
          pure .unknown
      | some located => do
          let target ← store.target located
          engine.inferTarget store target.node?

/- The type that belongs at a selection, if the source parses. -/
def tryInferAt
    (engine : Engine)
    (table : TreeTable)
    (source : String)
    (range : SourceRange) :
    Logged (Except Refusal Descriptor) := do
  match ← table.parseLinked source with
  | .error refusal => pure (.error refusal)
  | .ok store => .ok <$> engine.inferIn store range

/-
  The type that belongs at a selection.  It is `unknown`
  when the source does not parse.
-/
def inferAt
    (engine : Engine)
    (table : TreeTable)
    (source : String)
    (range : SourceRange) :
    Logged Descriptor := do
  match ← engine.tryInferAt table source range with
  | .ok type => pure type
  | .error refusal => do
      Logged.note (.notInferred range refusal)
      pure .unknown

end Engine

------------------------------------------------------------
-- Quick Fixes
------------------------------------------------------------

/- An edit that answers a diagnostic. -/
structure QuickFix where
  title : String
  diagnostic : Diagnostic
  edit : TextEdit
deriving DecidableEq, Repr

/- The fix that puts a type in place of a placeholder. -/
def QuickFix.ofType
    (range : SourceRange)
    (type : Descriptor) :
    QuickFix where
  title := "Convert 'any' to specific type"
  diagnostic := Placeholder.diagnostic range
  edit := { range := range, newText := type.render }

namespace Engine

/-
  The fix for a placeholder of a linked store.  There is
  none when the placeholder is no annotation.
-/
def fixFor
    (engine : Engine)
    (store : Store)
    (root : NodeId)
    (range : SourceRange) :
    Logged (Option QuickFix) := do
  match ← store.locate range root with
  | none => pure none
  | some located =>
      match ← store.target located with
      | .expression _ => do
          Logged.note (.notAscription range)
          pure none
      | .ascription described => do
          let type ← engine.inferTarget store described
          if type.IsUnknown then
            Logged.note (.nothingSpecific range)
          pure (some (.ofType range type))

theorem value_fixFor
    (engine : Engine)
    (store : Store)
    (root : NodeId)
    (range : SourceRange) :
    (engine.fixFor store root range).value =
      (store.locate range root).value.bind fun located =>
        match (store.target located).value with
        | .expression _ => none
        | .ascription described =>
            some (.ofType range (engine.inferTarget store described).value) := by
  unfold fixFor
  rw [Reported.value_bind]
  cases (store.locate range root).value with
  | none => rfl
  | some located =>
      simp only [Reported.value_bind, Option.bind_some]
      split
      · rfl
      · simp only [Reported.value_bind]
        split <;> rfl

/- The fixes for some placeholders of a linked store. -/
def fixesFor
    (engine : Engine)
    (store : Store)
    (root : NodeId)
    (ranges : List SourceRange) :
    Logged (List QuickFix) := do
  let fixes ← ranges.mapM (engine.fixFor store root)
  pure (fixes.filterMap id)

/-
  A fix for every placeholder that is an annotation.  A
  source without placeholders is not parsed.
-/
def quickFixes
    (engine : Engine)
    (table : TreeTable)
    (source : String) :
    Logged (Except Refusal (List QuickFix)) :=
  match Placeholder.ranges source with
  | [] => pure (.ok [])
  | ranges => do
      match ← table.parseLinked source with
      | .error refusal => pure (.error refusal)
      | .ok store =>
          match store.root with
          | none => pure (.ok [])
          | some root => .ok <$> engine.fixesFor store root ranges

theorem value_fixesFor
    (engine : Engine)
    (store : Store)
    (root : NodeId)
    (ranges : List SourceRange) :
    (engine.fixesFor store root ranges).value =
      ranges.filterMap fun range =>
        (engine.fixFor store root range).value := by
  rw [fixesFor, Reported.value_bind, Reported.value_mapM,
    Reported.value_pure, List.filterMap_map]
  rfl

/-
  The fixes of a source: there are none without placeholders,
  and otherwise they come from the parsed source.
-/
theorem value_quickFixes
    (engine : Engine)
    (table : TreeTable)
    (source : String) :
    (engine.quickFixes table source).value =
      if Placeholder.ranges source = [] then
        .ok []
      else
        match (table.parseLinked source).value with
        | .error refusal => .error refusal
        | .ok store =>
            .ok ((Placeholder.ranges source).filterMap fun range =>
              store.root.bind fun root =>
                (engine.fixFor store root range).value) := by
  unfold quickFixes
  split
  · rename_i hNone
    simp [hNone]
  · rename_i hSome
    rw [if_neg hSome, Reported.value_bind]
    cases (table.parseLinked source).value with
    | error refusal => rfl
    | ok store =>
        cases hRoot : store.root with
        | none => simp [hRoot]
        | some root => simp [hRoot, value_fixesFor]

end Engine

end ShapeTypes
