import ShapeTypes.Config.Basic
import ShapeTypes.Json.Value

/-
  Configurations read from JSON.

  A document is an object.  Every field may be missing, but
  none may be given twice, and `null` does not count as
  missing.  Other fields are ignored if their values are
  sound.

  Key definitions include:
    * `ShapeTypes.ConfigError`
    * `ShapeTypes.Config.patternOf?`
    * `ShapeTypes.Config.ofJson?`
    * `ShapeTypes.Config.read`
-/

namespace ShapeTypes

/- Why a text is no configuration. -/
inductive ConfigError where
  | invalid
deriving DecidableEq, Repr

/- The text that reports a failure. -/
def ConfigError.message : ConfigError → String
  | invalid => "invalid retype configuration"

namespace Config

------------------------------------------------------------
-- Fields
------------------------------------------------------------

/- The fields of a document. -/
abbrev Fields :=
  List (Option String × Json)

/- The values that some fields give to a key. -/
def valuesOf
    (fields : Fields)
    (key : String) :
    List Json :=
  (fields.filter fun field => field.1 == some key).map (·.2)

/- The value of a key that is given once. -/
def required?
    (fields : Fields)
    (key : String)
    (decode : Json → Option α) :
    Option α :=
  match valuesOf fields key with
  | [value] => decode value
  | _ => none

/- The value of a key that is given at most once. -/
def optional?
    (fields : Fields)
    (key : String)
    (missing : α)
    (decode : Json → Option α) :
    Option α :=
  match valuesOf fields key with
  | [] => some missing
  | [value] => decode value
  | _ => none

------------------------------------------------------------
-- Values
------------------------------------------------------------

/- A text. -/
def textOf? : Json → Option String
  | .string text => text
  | _ => none

/- A truth value. -/
def boolOf? : Json → Option Bool
  | .bool value => some value
  | _ => none

/- A natural number. -/
def naturalOf? : Json → Option Nat
  | .number (.natural value) => some value
  | _ => none

/- The treatment of mismatches that a word names. -/
def mismatchOfText? : String → Option BinaryMismatch
  | "union" => some .union
  | "unknown" => some .unknown
  | _ => none

/-
  A treatment of mismatches: a word, or an object with the
  word as its only key and nothing as its value.
-/
def mismatchOf? : Json → Option BinaryMismatch
  | .string (some text) => mismatchOfText? text
  | .object [(some text, .null)] => mismatchOfText? text
  | .object [(some text, .object [])] => mismatchOfText? text
  | _ => none

/-
  A call pattern: an object, or an array of its values.
  What else an object holds is not looked at.
-/
def patternOf? : Json → Option CallPattern
  | .array [callee, descriptor] => do
      let callee ← textOf? callee
      let descriptor ← textOf? descriptor
      pure { callee := callee, descriptor := descriptor }
  | .array [callee, descriptor, matchSimpleName] => do
      let callee ← textOf? callee
      let descriptor ← textOf? descriptor
      let matchSimpleName ← boolOf? matchSimpleName
      pure
        { callee := callee
          descriptor := descriptor
          matchSimpleName := matchSimpleName }
  | .object fields =>
      if fields.all (·.1.isSome) then do
        let callee ← required? fields "callee" textOf?
        let descriptor ← required? fields "descriptor" textOf?
        let matchSimpleName ←
          optional? fields "match_simple_name" false boolOf?
        pure
          { callee := callee
            descriptor := descriptor
            matchSimpleName := matchSimpleName }
      else
        none
  | _ => none

/- A list of call patterns. -/
def patternsOf? : Json → Option (List CallPattern)
  | .array items => items.mapM patternOf?
  | _ => none

------------------------------------------------------------
-- Documents
------------------------------------------------------------

/- How deep arrays and objects may be nested below the document. -/
def nestingLevels : Nat :=
  126

/- The configuration that a document writes. -/
def ofJson? : Json → Option Config
  | .object fields =>
      let others := fields.filter fun field => field.1 != some "call_patterns"
      if Json.areSoundFields nestingLevels others then do
        let collapseEqualBranches ←
          optional? fields "collapse_equal_branches" true boolOf?
        let binaryMismatch ←
          optional? fields "binary_mismatch" .union mismatchOf?
        let maxDepth ← optional? fields "max_depth" 256 naturalOf?
        let parameterPlaceholder ←
          optional? fields "parameter_placeholder" "unknown" textOf?
        let callPatterns ← optional? fields "call_patterns" [] patternsOf?
        pure
          { options :=
              { collapseEqualBranches := collapseEqualBranches
                binaryMismatch := binaryMismatch
                maxDepth := maxDepth
                parameterPlaceholder := parameterPlaceholder }
            callPatterns := callPatterns }
      else
        none
  | _ => none

/- The configuration that a text writes. -/
def read
    (text : String) :
    Except ConfigError Config :=
  match (Json.read? text).bind ofJson? with
  | some config => .ok config
  | none => .error .invalid

end Config

end ShapeTypes
