import ShapeTypes.Descriptor.Basic
import ShapeTypes.Inference.Registry
import ShapeTypes.Log
import ShapeTypes.Store.Basic
import ShapeTypes.Text.Word

/-
  Inference of types from the shape of nodes.

  Inference never fails: a shape that it makes nothing of
  gives `unknown`.  Within one inference a node is worked
  out at most once.  A node that is reached again while it
  is being worked out gives `unknown`, and one that is
  finished gives the type found before.

  Key definitions include:
    * `ShapeTypes.Options`
    * `ShapeTypes.Engine`
    * `ShapeTypes.Walk`
    * `ShapeTypes.Walk.Step`
    * `ShapeTypes.Store.calleePath?`
    * `ShapeTypes.Engine.inferKind`
    * `ShapeTypes.Engine.inferNode`
    * `ShapeTypes.Engine.infer`
-/

namespace ShapeTypes

------------------------------------------------------------
-- Options
------------------------------------------------------------

/- What a binary expression over two different types gives. -/
inductive BinaryMismatch where
  | union
  | unknown
deriving DecidableEq, Repr

/-
  How inference decides.  A node more than `maxDepth` steps
  below the start gives `unknown`.
-/
structure Options where
  collapseEqualBranches : Bool := true
  binaryMismatch : BinaryMismatch := .union
  maxDepth : Nat := 256
  parameterPlaceholder : String := "unknown"
deriving DecidableEq, Repr

/- Options together with the known calls. -/
structure Engine where
  options : Options := { }
  registry : Registry := .builtin
deriving DecidableEq, Repr

------------------------------------------------------------
-- Names in the Store
------------------------------------------------------------

namespace Store

/- The name of an identifier node. -/
def identifier?
    (store : Store)
    (id : NodeId) :
    Option String :=
  match store.find? id with
  | some ⟨_, _, .identifier name, _⟩ => some name
  | _ => none

/-
  The name of a field that has a key.  A string that is no
  identifier keeps its quotes.  A computed key has a name
  only if it is a literal.
-/
def keyName?
    (store : Store)
    (key : NodeId)
    (computed : Bool) :
    Option String :=
  match store.find? key with
  | some ⟨_, _, .identifier name, _⟩ =>
      if computed then none else some name
  | some ⟨_, _, .literal (.string value) raw, _⟩ =>
      if Text.isIdentifier value then some value else some raw
  | some ⟨_, _, .literal value _, _⟩ => some value.keyText
  | _ => none

/- The name and the value of a property that has a name. -/
def namedField?
    (store : Store)
    (property : NodeId) :
    Option (String × NodeId) :=
  match store.find? property with
  | some ⟨_, _, .property key value computed _ _, _⟩ =>
      (store.keyName? key computed).map (·, value)
  | _ => none

/- The name of a parameter, if its pattern is an identifier. -/
def parameterName?
    (store : Store)
    (param : NodeId) :
    Option String :=
  match store.find? param with
  | some ⟨_, _, .parameter pattern _ _, _⟩ => store.identifier? pattern
  | _ => store.identifier? param

/-
  The names of parameters, counted from `position`.  One
  without a name is called after its position.
-/
def parameterNames
    (store : Store) :
    (position : Nat) → List NodeId → List String
  | _, [] => []
  | position, param :: params =>
      (store.parameterName? param).getD ("p" ++ toString position)
        :: store.parameterNames (position + 1) params

/-
  The names of a chain of property accesses, in front of
  those already found.  At most `steps` nodes are looked at.
-/
def calleeNames?
    (store : Store) :
    (steps : Nat) → (found : List String) → NodeId → Option (List String)
  | 0, _, _ => none
  | steps + 1, found, id =>
      match store.find? id with
      | some ⟨_, _, .identifier name, _⟩ => some (name :: found)
      | some ⟨_, _, .member object property false, _⟩ =>
          match store.identifier? property with
          | some name => store.calleeNames? steps (name :: found) object
          | none => none
      | _ => none

/- The dotted path of a callee with at most `maxDepth` dots. -/
def calleePath?
    (store : Store)
    (callee : NodeId)
    (maxDepth : Nat) :
    Option String :=
  (store.calleeNames? (maxDepth + 1) [] callee).map ".".intercalate

end Store

------------------------------------------------------------
-- Walks
------------------------------------------------------------

/-
  The state of one inference: the nodes that are being
  worked out, and the types of those that are finished.
-/
structure Walk where
  active : NodeSet := ∅
  finished : Std.ExtTreeMap NodeId Descriptor := ∅

namespace Walk

/- Begin to work out a node. -/
def enter
    (walk : Walk)
    (id : NodeId) :
    Walk :=
  { walk with active := walk.active.insert id }

/- Finish a node. -/
def leave
    (walk : Walk)
    (id : NodeId)
    (type : Descriptor) :
    Walk where
  active := walk.active.erase id
  finished := walk.finished.insert id type

/- A node that is worked out, and how deep it is met. -/
structure Entry where
  depth : Nat
  id : NodeId
deriving DecidableEq, Repr

/- What is reported on a walk: the nodes that are worked out, and events. -/
inductive Step where
  | entered (entry : Entry)
  | noted (event : Event)
deriving DecidableEq, Repr

namespace Step

def entry? : Step → Option Entry
  | entered entry => some entry
  | noted _ => none

def event? : Step → Option Event
  | entered _ => none
  | noted event => some event

end Step

instance : MonadLift Logged (Reported Step) where
  monadLift x := { value := x.value, log := x.log.map .noted }

variable {α : Type}

@[simp]
theorem value_monadLift
    (x : Logged α) :
    (monadLift x : Reported Step α).value = x.value :=
  rfl

@[simp]
theorem log_monadLift
    (x : Logged α) :
    (monadLift x : Reported Step α).log = x.log.map .noted :=
  rfl

end Walk

/- A part of an inference, with its walk and what it reports. -/
abbrev InferM :=
  StateT Walk (Reported Walk.Step)

namespace InferM

/- Report that a node is worked out. -/
def entering
    (entry : Walk.Entry) :
    InferM Unit :=
  fun walk => { value := ((), walk), log := [.entered entry] }

@[simp]
theorem run_entering
    (entry : Walk.Entry)
    (walk : Walk) :
    (entering entry).run walk =
      { value := ((), walk), log := [.entered entry] } :=
  rfl

end InferM

------------------------------------------------------------
-- The Table of Kinds
------------------------------------------------------------

namespace Engine

/- The type of a literal. -/
def literalType : LiteralValue → Descriptor
  | .string _ => .primitive .string
  | .number _ => .primitive .number
  | .boolean _ => .primitive .boolean
  | .null => .primitive .null
  | .bigint _ => .primitive .bigint
  | .regexp _ => .named "RegExp"

/- The type of an array with elements of some types. -/
def arrayType
    (elements : List Descriptor) :
    Descriptor :=
  match elements.eraseDups with
  | [] => .array .unknown
  | [type] => .array type
  | members => .genericArray members

/- The type of a conditional whose branches have two types. -/
def branchType
    (options : Options)
    (consequent alternate : Descriptor) :
    Descriptor :=
  if options.collapseEqualBranches ∧ consequent = alternate then
    consequent
  else
    .join [consequent, alternate]

/- The type of a binary expression whose operands have two types. -/
def operandType
    (options : Options)
    (left right : Descriptor) :
    Descriptor :=
  if left = right then
    left
  else
    match options.binaryMismatch with
    | .union => .join [left, right]
    | .unknown => .unknown

/- The type of a function with parameters of some names. -/
def functionType
    (options : Options)
    (names : List String)
    (result : Descriptor) :
    Descriptor :=
  let placeholder := Descriptor.ofText options.parameterPlaceholder
  .function (names.map (·, placeholder)) result

/- The type of a call of a callee. -/
def inferCall
    (engine : Engine)
    (store : Store)
    (callee : NodeId) :
    Logged Descriptor :=
  match store.calleePath? callee engine.options.maxDepth with
  | none => pure .unknown
  | some path =>
      match engine.registry.resolve? path with
      | some type => pure type
      | none => do
          Logged.note (.noPattern path)
          pure .unknown

/-
  The type of a node by its kind, where `visit` gives the
  types of its parts.
-/
def inferKind
    (engine : Engine)
    (store : Store)
    (visit : NodeId → InferM Descriptor) :
    Kind → InferM Descriptor
  | .variableDeclaration _ declarations => do
      let types ← declarations.mapM visit
      pure (.join types)
  | .variableDeclarator _ _ (some init) => visit init
  | .literal value _ => pure (literalType value)
  | .arrayExpression elements => do
      let types ← (elements.filterMap id).mapM visit
      pure (arrayType types)
  | .objectExpression properties => do
      let fields ←
        (properties.filterMap store.namedField?).mapM fun field => do
          let type ← visit field.2
          pure (field.1, type)
      pure (.record fields)
  | .arrowFunction params (.expression body) _ => do
      let result ← visit body
      pure (functionType engine.options (store.parameterNames 1 params) result)
  | .arrowFunction params (.block _) _ =>
      pure
        (functionType engine.options (store.parameterNames 1 params) .unknown)
  | .conditional _ consequent alternate => do
      let consequent ← visit consequent
      let alternate ← visit alternate
      pure (branchType engine.options consequent alternate)
  | .binary _ left right => do
      let left ← visit left
      let right ← visit right
      pure (operandType engine.options left right)
  | .call callee _ => engine.inferCall store callee
  | _ => pure .unknown

------------------------------------------------------------
-- Inference
------------------------------------------------------------

/-
  The type of a node `depth` steps below the start.  Every
  level of recursion works out another stored node, so fuel
  beyond the size of the store is never used up.
-/
def inferNode
    (engine : Engine)
    (store : Store) :
    (fuel : Nat) → (depth : Nat) → NodeId → InferM Descriptor
  | 0, _, _ => pure .unknown
  | fuel + 1, depth, id => do
      let walk ← get
      match walk.finished[id]? with
      | some type => pure type
      | none =>
          if engine.options.maxDepth < depth then
            Logged.note (.depthReached id)
            pure .unknown
          else
            match store.find? id with
            | none => pure .unknown
            | some node =>
                if id ∈ walk.active then
                  Logged.note (.selfReference id)
                  pure .unknown
                else
                  set (walk.enter id)
                  InferM.entering ⟨depth, id⟩
                  let type ←
                    engine.inferKind store
                      (engine.inferNode store fuel (depth + 1)) node.kind
                  modify (·.leave id type)
                  pure type

/- The type of a node, with all that is reported on the walk. -/
def inferReported
    (engine : Engine)
    (store : Store)
    (id : NodeId) :
    Reported Walk.Step Descriptor :=
  (engine.inferNode store (store.size + 1) 0 id).run' { }

/- The type of a node, with the events on the way to it. -/
def inferLogged
    (engine : Engine)
    (store : Store)
    (id : NodeId) :
    Logged Descriptor :=
  let reported := engine.inferReported store id
  { value := reported.value, log := reported.log.filterMap Walk.Step.event? }

/- The type of a node. -/
def infer
    (engine : Engine)
    (store : Store)
    (id : NodeId) :
    Descriptor :=
  (engine.inferLogged store id).value

end Engine

end ShapeTypes
