import ShapeTypes.Inference.Engine
import ShapeTypes.Json.Quoted

/-
  Configurations: inference options and extra call patterns.

  Key definitions include:
    * `ShapeTypes.Config`
    * `ShapeTypes.Config.engine`
    * `ShapeTypes.Config.render`
-/

namespace ShapeTypes

------------------------------------------------------------
-- Configurations
------------------------------------------------------------

/- What a configuration says; all of it has a default. -/
structure Config where
  options : Options := { }
  callPatterns : List CallPattern := []
deriving DecidableEq, Repr

namespace Config

/- The engine that a configuration asks for. -/
def engine
    (config : Config) :
    Engine where
  options := config.options
  registry := Registry.builtin.extend config.callPatterns

------------------------------------------------------------
-- Writing
------------------------------------------------------------

/- The word for a truth value. -/
def boolText
    (value : Bool) :
    String :=
  if value then "true" else "false"

/- The word for a treatment of mismatches. -/
def mismatchText : BinaryMismatch → String
  | .union => "union"
  | .unknown => "unknown"

/- A field of an object. -/
def renderField
    (key value : String) :
    String :=
  Json.quote key ++ ":" ++ value

/- An object with some fields. -/
def renderObject
    (fields : List String) :
    String :=
  "\x7b" ++ ",".intercalate fields ++ "\x7d"

/- A call pattern as an object. -/
def renderPattern
    (pattern : CallPattern) :
    String :=
  renderObject
    [renderField "callee" (Json.quote pattern.callee),
     renderField "descriptor" (Json.quote pattern.descriptor),
     renderField "match_simple_name" (boolText pattern.matchSimpleName)]

/- The document that writes a configuration. -/
def render
    (config : Config) :
    String :=
  renderObject
    [renderField "collapse_equal_branches"
       (boolText config.options.collapseEqualBranches),
     renderField "binary_mismatch"
       (Json.quote (mismatchText config.options.binaryMismatch)),
     renderField "max_depth" (toString config.options.maxDepth),
     renderField "parameter_placeholder"
       (Json.quote config.options.parameterPlaceholder),
     renderField "call_patterns"
       ("[" ++ ",".intercalate (config.callPatterns.map renderPattern) ++ "]")]

end Config

end ShapeTypes
