import ShapeTypes.Concrete.Refusal
import ShapeTypes.Node.Kind

/-
  What the program reports while it works.

  Key definitions include:
    * `ShapeTypes.Level`
    * `ShapeTypes.Event`
    * `ShapeTypes.Event.render`
    * `ShapeTypes.Reported`
    * `ShapeTypes.Logged`
-/

namespace ShapeTypes

------------------------------------------------------------
-- Levels
------------------------------------------------------------

/- How much a report matters. -/
inductive Level where
  | error
  | warn
  | info
  | debug
  | trace
deriving DecidableEq, Repr

namespace Level

/- The word for a level. -/
def text : Level → String
  | error => "error"
  | warn => "warn"
  | info => "info"
  | debug => "debug"
  | trace => "trace"

/- The rank of a level; what matters most comes first. -/
def rank : Level → Nat
  | error => 0
  | warn => 1
  | info => 2
  | debug => 3
  | trace => 4

end Level

------------------------------------------------------------
-- Events
------------------------------------------------------------

/- Everything that is reported. -/
inductive Event where
  | fault (location : Location) (kind : String)
  | built (size : Nat)
  | linked (visited : Nat) (root : NodeId)
  | notContained (range : SourceRange)
  | budgetSpent (range : SourceRange)
  | located
      (name : String) (id : NodeId) (location : Location) (range : SourceRange)
  | depthReached (id : NodeId)
  | selfReference (id : NodeId)
  | noPattern (path : String)
  | notFound (range : SourceRange)
  | notInferred (range : SourceRange) (refusal : Refusal)
  | notAscription (range : SourceRange)
  | nothingSpecific (range : SourceRange)
  | notPlaceholder (text : String) (location : Location)
  | noParent (id : NodeId)
  | unsupportedOwner (name : String) (location : Location)
  | caseRefused (source : String) (refusal : Refusal)
  | casePassed (source actual : String)
  | caseFailed (source expected actual : String)
  | configLoaded (path : String) (patterns : Nat)
deriving DecidableEq, Repr

namespace Event

/- How much an event matters. -/
def level : Event → Level
  | caseFailed _ _ _ => .error
  | notInferred _ _ => .warn
  | caseRefused _ _ => .warn
  | notFound _ => .info
  | casePassed _ _ => .info
  | _ => .debug

/- The part of the program that reports an event. -/
def origin : Event → String
  | fault _ _ => "retype_ast::builder"
  | built _ => "retype_ast::builder"
  | linked _ _ => "retype_ast::parents"
  | notContained _ => "retype_ast::locator"
  | budgetSpent _ => "retype_ast::locator"
  | located _ _ _ _ => "retype_ast::locator"
  | depthReached _ => "retype_type_inference::engine"
  | selfReference _ => "retype_type_inference::engine"
  | noPattern _ => "retype_type_inference::engine"
  | notFound _ => "retype"
  | notInferred _ _ => "retype"
  | notAscription _ => "retype"
  | nothingSpecific _ => "retype"
  | notPlaceholder _ _ => "retype::target"
  | noParent _ => "retype::target"
  | unsupportedOwner _ _ => "retype::target"
  | caseRefused _ _ => "retype::self_test"
  | casePassed _ _ => "retype::self_test"
  | caseFailed _ _ _ => "retype::self_test"
  | configLoaded _ _ => "retype::config"

/- The text of an event. -/
def message : Event → String
  | fault location kind =>
      "syntax error at " ++ location.render ++ ": " ++ kind
  | built size =>
      "built syntax tree with " ++ toString size ++ " node(s)"
  | linked visited root =>
      "augmented " ++ toString visited ++ " node(s) from " ++ toString root
  | notContained range => "no node contains " ++ range.render
  | budgetSpent range =>
      "visit budget exhausted while locating " ++ range.render
  | located name id location range =>
      "located " ++ name ++ " (id " ++ toString id ++ ") at "
        ++ location.render ++ " for " ++ range.render
  | depthReached id => "depth limit reached at node " ++ toString id
  | selfReference id => "node " ++ toString id ++ " references itself"
  | noPattern path => "no call pattern for `" ++ path ++ "`"
  | notFound range => "no node found at " ++ range.render
  | notInferred range refusal =>
      "could not infer at " ++ range.render ++ ": " ++ refusal.message
  | notAscription range =>
      "placeholder at " ++ range.render ++ " is not a type annotation"
  | nothingSpecific range =>
      "no specific type for placeholder at " ++ range.render
  | notPlaceholder text location =>
      "annotation `" ++ text ++ "` at " ++ location.render
        ++ " is not a bare placeholder"
  | noParent id =>
      "annotation " ++ toString id
        ++ " has no parent; was the arena augmented?"
  | unsupportedOwner name location =>
      "placeholder owned by unsupported " ++ name ++ " at " ++ location.render
  | caseRefused source refusal =>
      "self-test case `" ++ source ++ "` failed to parse: " ++ refusal.message
  | casePassed source actual => "PASS " ++ source ++ " => " ++ actual
  | caseFailed source expected actual =>
      "FAIL " ++ source ++ " => expected " ++ expected ++ ", got " ++ actual
  | configLoaded path patterns =>
      "loaded " ++ path ++ " with " ++ toString patterns
        ++ " extra call pattern(s)"

/- The line that reports an event. -/
def render
    (event : Event) :
    String :=
  event.level.text ++ ": [" ++ event.origin ++ "] " ++ event.message

end Event

------------------------------------------------------------
-- Logged Results
------------------------------------------------------------

/- Results that may be refused can be compared. -/
instance exceptDecidableEq
    {ε α : Type}
    [DecidableEq ε]
    [DecidableEq α] :
    DecidableEq (Except ε α)
  | .ok a, .ok b => decidable_of_iff (a = b) (by simp)
  | .error a, .error b => decidable_of_iff (a = b) (by simp)
  | .ok _, .error _ => .isFalse nofun
  | .error _, .ok _ => .isFalse nofun

/- A result and what was reported on the way to it, in order. -/
structure Reported (ε α : Type) where
  value : α
  log : List ε := []

/- A result and the events on the way to it. -/
abbrev Logged :=
  Reported Event

namespace Logged

/- Report an event. -/
def note
    (event : Event) :
    Logged Unit :=
  { value := (), log := [event] }

/- Report some events. -/
def noteAll
    (events : List Event) :
    Logged Unit :=
  { value := (), log := events }

end Logged

namespace Reported

instance {ε : Type} : Monad (Reported ε) where
  pure value := { value := value }
  bind x f :=
    let y := f x.value
    { value := y.value, log := x.log ++ y.log }

instance {ε : Type} : LawfulMonad (Reported ε) :=
  LawfulMonad.mk' (Reported ε)
    (fun _ => by simp [Functor.map])
    (fun _ _ => by simp [bind, pure])
    (fun _ _ _ => by simp [bind])

variable {ε α β : Type}

@[simp]
theorem value_pure
    (a : α) :
    (pure a : Reported ε α).value = a :=
  rfl

@[simp]
theorem log_pure
    (a : α) :
    (pure a : Reported ε α).log = [] :=
  rfl

@[simp]
theorem value_bind
    (x : Reported ε α)
    (f : α → Reported ε β) :
    (x >>= f).value = (f x.value).value :=
  rfl

@[simp]
theorem log_bind
    (x : Reported ε α)
    (f : α → Reported ε β) :
    (x >>= f).log = x.log ++ (f x.value).log :=
  rfl

@[simp]
theorem value_map
    (x : Reported ε α)
    (f : α → β) :
    (f <$> x).value = f x.value :=
  rfl

@[simp]
theorem log_map
    (x : Reported ε α)
    (f : α → β) :
    (f <$> x).log = x.log := by
  simp [Functor.map]

@[simp]
theorem value_mapM
    (f : α → Reported ε β)
    (as : List α) :
    (as.mapM f).value = as.map fun a => (f a).value := by
  induction as with
  | nil => rfl
  | cons a as ih => simp [ih]

end Reported

end ShapeTypes
