import ShapeTypes.Config.Reader
import ShapeTypes.Proofs.Json.Written

/-
  Configurations survive being written and read.

  What is written is one object: the options as its fields,
  and behind them the call patterns as an array of objects.

  Key definitions include:
    * `ShapeTypes.Config.patternDocument`
    * `ShapeTypes.Config.document`

  Key theorems include:
    * `ShapeTypes.Config.render_writes`
    * `ShapeTypes.Config.ofJson?_document`
    * `ShapeTypes.Config.read_render`
-/

------------------------------------------------------------
-- Written Documents
------------------------------------------------------------

namespace ShapeTypes

namespace Config

open Json (Writes WritesField)

/- The object that a call pattern is written as. -/
def patternDocument
    (pattern : CallPattern) :
    Json :=
  .object
    [(some "callee", .string (some pattern.callee)),
     (some "descriptor", .string (some pattern.descriptor)),
     (some "match_simple_name", .bool pattern.matchSimpleName)]

/- The object that a configuration is written as. -/
def document
    (config : Config) :
    Json :=
  .object
    [(some "collapse_equal_branches",
       .bool config.options.collapseEqualBranches),
     (some "binary_mismatch",
       .string (some (mismatchText config.options.binaryMismatch))),
     (some "max_depth", .number (.natural config.options.maxDepth)),
     (some "parameter_placeholder",
       .string (some config.options.parameterPlaceholder)),
     (some "call_patterns",
       .array (config.callPatterns.map patternDocument))]

theorem renderField_writes
    {value : String}
    {json : Json}
    (key : String)
    (hValue : Writes value.toList json) :
    WritesField (renderField key value).toList (some key, json) := by
  refine ⟨key, value.toList, ?_, rfl, hValue⟩
  simp [renderField]

theorem renderObject_writes
    {texts : List String}
    {fields : Fields}
    (hFields :
      List.Forall₂ WritesField (texts.map String.toList) fields) :
    Writes (renderObject texts).toList (.object fields) := by
  have hText :
      (renderObject texts).toList =
        '\x7b' ::
          ([','].intercalate (texts.map String.toList) ++ ['\x7d']) := by
    simp [renderObject, String.toList_intercalate]
  rw [hText]
  exact Writes.object hFields

theorem renderPattern_writes
    (pattern : CallPattern) :
    Writes (renderPattern pattern).toList (patternDocument pattern) := by
  apply renderObject_writes
  apply List.Forall₂.cons
  · exact renderField_writes "callee" (Writes.string pattern.callee)
  apply List.Forall₂.cons
  · exact renderField_writes "descriptor" (Writes.string pattern.descriptor)
  apply List.Forall₂.cons
  · exact renderField_writes "match_simple_name"
      (Writes.bool pattern.matchSimpleName)
  exact List.Forall₂.nil

theorem renderPatterns_writes
    (patterns : List CallPattern) :
    Writes
      ("[" ++ ",".intercalate (patterns.map renderPattern) ++ "]").toList
      (.array (patterns.map patternDocument)) := by
  have hText :
      ("[" ++ ",".intercalate (patterns.map renderPattern) ++ "]").toList =
        '[' ::
          ([','].intercalate
            (patterns.map fun p => (renderPattern p).toList) ++ [']']) := by
    simp [String.toList_intercalate, Function.comp_def]
  rw [hText]
  apply Writes.array
  rw [List.forall₂_map_left_iff, List.forall₂_map_right_iff,
    List.forall₂_same]
  intro pattern _
  exact renderPattern_writes pattern

/- A configuration with a depth of 64 bits writes its object. -/
theorem render_writes
    (config : Config)
    (hDepth : config.options.maxDepth < Nat.pow 2 64) :
    Writes config.render.toList config.document := by
  apply renderObject_writes
  apply List.Forall₂.cons
  · exact renderField_writes "collapse_equal_branches"
      (Writes.bool config.options.collapseEqualBranches)
  apply List.Forall₂.cons
  · exact renderField_writes "binary_mismatch"
      (Writes.string (mismatchText config.options.binaryMismatch))
  apply List.Forall₂.cons
  · exact renderField_writes "max_depth" (Writes.natural hDepth)
  apply List.Forall₂.cons
  · exact renderField_writes "parameter_placeholder"
      (Writes.string config.options.parameterPlaceholder)
  apply List.Forall₂.cons
  · exact renderField_writes "call_patterns"
      (renderPatterns_writes config.callPatterns)
  exact List.Forall₂.nil

end Config

end ShapeTypes

------------------------------------------------------------
-- Documents Read Back
------------------------------------------------------------

namespace ShapeTypes

namespace Config

theorem patternOf?_document
    (pattern : CallPattern) :
    patternOf? (patternDocument pattern) = some pattern := by
  simp [patternDocument, patternOf?, required?, optional?, valuesOf,
    textOf?, boolOf?]

/- Call patterns are read in order, repeated ones too. -/
theorem patternsOf?_document
    (patterns : List CallPattern) :
    patternsOf? (.array (patterns.map patternDocument)) =
      some patterns := by
  rw [patternsOf?]
  induction patterns with
  | nil => rfl
  | cons pattern patterns ih =>
      rw [List.map_cons, List.mapM_cons, patternOf?_document, ih]
      rfl

theorem mismatchOf?_text
    (mismatch : BinaryMismatch) :
    mismatchOf? (.string (some (mismatchText mismatch))) =
      some mismatch := by
  cases mismatch with
  | union => rfl
  | unknown => rfl

theorem ofJson?_document
    (config : Config) :
    ofJson? config.document = some config := by
  simp [document, ofJson?, optional?, valuesOf, textOf?, boolOf?,
    naturalOf?, mismatchOf?_text, patternsOf?_document,
    Json.areSoundFields, Json.isSound]

/-
  A configuration is written as one object with the options
  and the call patterns as its fields, and the text that is
  written is read as the same configuration.
-/
theorem read_render
    (config : Config)
    (hDepth : config.options.maxDepth < Nat.pow 2 64) :
    Json.read? config.render = some config.document ∧
      Config.read config.render = .ok config := by
  have hRead : Json.read? config.render = some config.document :=
    (render_writes config hDepth).read?_eq
  refine ⟨hRead, ?_⟩
  rw [Config.read, hRead, Option.bind_some, ofJson?_document]

/-
  A configuration with the largest depth, a text of quotes,
  control characters and a character beyond 16 bits, and one
  pattern twice.
-/
def awkward : Config where
  options :=
    { collapseEqualBranches := false
      binaryMismatch := .unknown
      maxDepth := Nat.pow 2 64 - 1
      parameterPlaceholder := "\"\\\n\x00\x1f\x7f/é😀" }
  callPatterns :=
    [⟨"a.b", "\t", true⟩, ⟨"a.b", "\t", true⟩]

/- It is read back all the same. -/
theorem read_render_awkward :
    awkward.options.maxDepth < Nat.pow 2 64 ∧
      Json.read? awkward.render = some awkward.document ∧
        Config.read awkward.render = .ok awkward := by
  have hDepth : awkward.options.maxDepth < Nat.pow 2 64 := by decide
  exact ⟨hDepth, read_render awkward hDepth⟩

end Config

end ShapeTypes
