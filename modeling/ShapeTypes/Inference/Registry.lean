import ShapeTypes.Descriptor.Basic

/-
  Call patterns: the types of calls that are known by name.

  A callee is written as a dotted path.  A pattern answers
  for its own path and, if it asks to, for every path that
  ends in the same name.

  Key definitions include:
    * `ShapeTypes.CallPattern`
    * `ShapeTypes.Registry`
    * `ShapeTypes.Registry.register`
    * `ShapeTypes.Registry.lookup?`
    * `ShapeTypes.Registry.resolve?`
-/

namespace ShapeTypes

------------------------------------------------------------
-- Patterns
------------------------------------------------------------

/- The part of a dotted path after its last dot. -/
def simpleName
    (path : String) :
    String :=
  String.ofList (path.toList.reverse.takeWhile (· ≠ '.')).reverse

/- The type of the calls of a callee. -/
structure CallPattern where
  callee : String
  descriptor : String
  matchSimpleName : Bool := false
deriving DecidableEq, Repr

namespace CallPattern

/- The last name of the callee. -/
def simpleName
    (pattern : CallPattern) :
    String :=
  ShapeTypes.simpleName pattern.callee

/- The pattern answers for every path that ends in a name. -/
def MatchesName
    (pattern : CallPattern)
    (name : String) : Prop :=
  pattern.matchSimpleName = true ∧ pattern.simpleName = name

instance
    (pattern : CallPattern)
    (name : String) :
    Decidable (pattern.MatchesName name) := by
  unfold MatchesName
  infer_instance

end CallPattern

------------------------------------------------------------
-- Registries
------------------------------------------------------------

/- Patterns in the order of their last registration. -/
structure Registry where
  patterns : List CallPattern
deriving DecidableEq, Repr

namespace Registry

/- The registry without patterns. -/
def empty : Registry :=
  ⟨[]⟩

/- Add a pattern in place of any pattern for the same callee. -/
def register
    (registry : Registry)
    (pattern : CallPattern) :
    Registry :=
  ⟨registry.patterns.filter (·.callee ≠ pattern.callee) ++ [pattern]⟩

/- Add some patterns in order. -/
def extend
    (registry : Registry)
    (patterns : List CallPattern) :
    Registry :=
  patterns.foldl register registry

/- The patterns that are known from the start. -/
def builtin : Registry :=
  empty.register
    { callee := "document.getElementById"
      descriptor := "HTMLElement | null"
      matchSimpleName := true }

/-
  The pattern for a callee: the one with that very path, or
  else the first that answers for its last name.
-/
def lookup?
    (registry : Registry)
    (callee : String) :
    Option CallPattern :=
  (registry.patterns.find? fun pattern => pattern.callee = callee).or
    (registry.patterns.find? fun pattern =>
      pattern.MatchesName (simpleName callee))

/- The type of the calls of a callee. -/
def resolve?
    (registry : Registry)
    (callee : String) :
    Option Descriptor :=
  (registry.lookup? callee).map fun pattern =>
    Descriptor.ofText pattern.descriptor

end Registry

end ShapeTypes
