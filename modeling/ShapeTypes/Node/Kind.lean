import ShapeTypes.Node.Operator
import ShapeTypes.Span

/-
  Nodes of a syntax tree.  A node refers to its parts by
  their ids, so that parts can be shared or missing.

  Key definitions include:
    * `ShapeTypes.NodeId`
    * `ShapeTypes.LiteralValue`
    * `ShapeTypes.Kind`
    * `ShapeTypes.Kind.children`
    * `ShapeTypes.Kind.map`
    * `ShapeTypes.Kind.name`
    * `ShapeTypes.Node`
-/

namespace ShapeTypes

------------------------------------------------------------
-- Literals
------------------------------------------------------------

/- The identity of a node. -/
abbrev NodeId :=
  Nat

/-
  The value of a literal.  Numbers and regular expressions
  are kept as they are written.
-/
inductive LiteralValue where
  | string (value : String)
  | number (text : String)
  | boolean (value : Bool)
  | null
  | bigint (text : String)
  | regexp (text : String)
deriving DecidableEq, Repr

/- The text of a literal that stands as a property key. -/
def LiteralValue.keyText : LiteralValue → String
  | string value => value
  | number text => text
  | boolean true => "true"
  | boolean false => "false"
  | null => "null"
  | bigint text => text
  | regexp text => text

------------------------------------------------------------
-- Kinds
------------------------------------------------------------

/- The body of an arrow function. -/
inductive ArrowBody where
  | expression (id : NodeId)
  | block (id : NodeId)
deriving DecidableEq, Repr

/- The node that is the body. -/
def ArrowBody.id : ArrowBody → NodeId
  | expression id => id
  | block id => id

/- The same body at another node. -/
def ArrowBody.map
    (f : NodeId → NodeId) :
    ArrowBody → ArrowBody
  | expression id => expression (f id)
  | block id => block (f id)

/-
  What a node is.  An element of an array is absent where a
  comma stands for a hole.  `other` holds every construct
  that inference makes nothing of.
-/
inductive Kind where
  | program (body : List NodeId)
  | variableDeclaration
      (keyword : DeclarationKeyword) (declarations : List NodeId)
  | variableDeclarator
      (name : NodeId) (type init : Option NodeId)
  | expressionStatement (expression : NodeId)
  | blockStatement (body : List NodeId)
  | returnStatement (argument : Option NodeId)
  | literal (value : LiteralValue) (raw : String)
  | identifier (name : String)
  | arrayExpression (elements : List (Option NodeId))
  | objectExpression (properties : List NodeId)
  | property (key value : NodeId) (computed shorthand method : Bool)
  | spreadElement (argument : NodeId)
  | arrowFunction
      (params : List NodeId) (body : ArrowBody) (returnType : Option NodeId)
  | parameter (pattern : NodeId) (type default : Option NodeId)
  | conditional (test consequent alternate : NodeId)
  | binary (operator : BinaryOperator) (left right : NodeId)
  | call (callee : NodeId) (arguments : List NodeId)
  | member (object name : NodeId) (computed : Bool)
  | templateLiteral (expressions : List NodeId)
  | unary (operator : UnaryOperator) (argument : NodeId)
  | asExpression (expression type : NodeId)
  | ascription (text : String)
  | other (kind : String) (children : List NodeId)
deriving DecidableEq, Repr

namespace Kind

/-
  The parts of a node in source order.  A shared part is
  listed once for each reference to it.
-/
def children : Kind → List NodeId
  | program body => body
  | variableDeclaration _ declarations => declarations
  | variableDeclarator name type init =>
      name :: (type.toList ++ init.toList)
  | expressionStatement expression => [expression]
  | blockStatement body => body
  | returnStatement argument => argument.toList
  | literal _ _ => []
  | identifier _ => []
  | arrayExpression elements => elements.filterMap id
  | objectExpression properties => properties
  | property key value _ _ _ => [key, value]
  | spreadElement argument => [argument]
  | arrowFunction params body returnType =>
      params ++ returnType.toList ++ [body.id]
  | parameter pattern type default =>
      pattern :: (type.toList ++ default.toList)
  | conditional test consequent alternate => [test, consequent, alternate]
  | binary _ left right => [left, right]
  | call callee arguments => callee :: arguments
  | member object name _ => [object, name]
  | templateLiteral expressions => expressions
  | unary _ argument => [argument]
  | asExpression expression type => [expression, type]
  | ascription _ => []
  | other _ children => children

/- The same kind with other references to its parts. -/
def map
    (f : NodeId → NodeId) :
    Kind → Kind
  | program body => program (body.map f)
  | variableDeclaration keyword declarations =>
      variableDeclaration keyword (declarations.map f)
  | variableDeclarator name type init =>
      variableDeclarator (f name) (type.map f) (init.map f)
  | expressionStatement expression => expressionStatement (f expression)
  | blockStatement body => blockStatement (body.map f)
  | returnStatement argument => returnStatement (argument.map f)
  | literal value raw => literal value raw
  | identifier name => identifier name
  | arrayExpression elements => arrayExpression (elements.map (·.map f))
  | objectExpression properties => objectExpression (properties.map f)
  | property key value computed shorthand method =>
      property (f key) (f value) computed shorthand method
  | spreadElement argument => spreadElement (f argument)
  | arrowFunction params body returnType =>
      arrowFunction (params.map f) (body.map f) (returnType.map f)
  | parameter pattern type default =>
      parameter (f pattern) (type.map f) (default.map f)
  | conditional test consequent alternate =>
      conditional (f test) (f consequent) (f alternate)
  | binary operator left right => binary operator (f left) (f right)
  | call callee arguments => call (f callee) (arguments.map f)
  | member object name computed => member (f object) (f name) computed
  | templateLiteral expressions => templateLiteral (expressions.map f)
  | unary operator argument => unary operator (f argument)
  | asExpression expression type => asExpression (f expression) (f type)
  | ascription text => ascription text
  | other kind children => other kind (children.map f)

/- The parts are those that the new references lead to. -/
@[simp]
theorem children_map
    (f : NodeId → NodeId)
    (kind : Kind) :
    (kind.map f).children = kind.children.map f := by
  cases kind with
  | variableDeclarator name type init =>
      cases type <;> cases init <;> rfl
  | returnStatement argument => cases argument <;> rfl
  | arrayExpression elements =>
      simp only [map, children, List.filterMap_map, List.map_filterMap]
      rfl
  | arrowFunction params body returnType =>
      cases body <;> cases returnType <;>
        simp [map, children, ArrowBody.map, ArrowBody.id]
  | parameter pattern type default =>
      cases type <;> cases default <;> rfl
  | _ => rfl

theorem map_map
    (f g : NodeId → NodeId)
    (kind : Kind) :
    (kind.map f).map g = kind.map (g ∘ f) := by
  cases kind with
  | arrowFunction params body returnType =>
      cases body <;> simp [map, ArrowBody.map]
  | _ => simp [map]

theorem map_id
    (kind : Kind) :
    kind.map id = kind := by
  cases kind with
  | arrowFunction params body returnType =>
      cases body <;> simp [map, ArrowBody.map]
  | _ => simp [map]

/- Only the references to parts are changed. -/
theorem map_congr
    {f g : NodeId → NodeId}
    {kind : Kind}
    (hSame : ∀ child ∈ kind.children, f child = g child) :
    kind.map f = kind.map g := by
  cases kind with
  | variableDeclarator name type init =>
      cases type <;> cases init <;> simp_all [map, children]
  | returnStatement argument => cases argument <;> simp_all [map, children]
  | arrayExpression elements =>
      have hElements : ∀ element ∈ elements, element.map f = element.map g := by
        intro element hElement
        cases element <;> simp_all [children]
      simpa [map] using hElements
  | arrowFunction params body returnType =>
      cases body <;> cases returnType <;>
        simp_all [map, children, ArrowBody.map, ArrowBody.id]
  | parameter pattern type default =>
      cases type <;> cases default <;> simp_all [map, children]
  | _ => simp_all [map, children]

/- A type has no references that could be changed. -/
theorem map_eq_ascription_iff
    {f : NodeId → NodeId}
    {kind : Kind}
    {text : String} :
    kind.map f = ascription text ↔ kind = ascription text := by
  cases kind <;> simp [map]

/- The name of a kind; an uninterpreted construct keeps its own. -/
def name : Kind → String
  | program _ => "Program"
  | variableDeclaration _ _ => "VariableDeclaration"
  | variableDeclarator _ _ _ => "VariableDeclarator"
  | expressionStatement _ => "ExpressionStatement"
  | blockStatement _ => "BlockStatement"
  | returnStatement _ => "ReturnStatement"
  | literal _ _ => "Literal"
  | identifier _ => "Identifier"
  | arrayExpression _ => "ArrayExpression"
  | objectExpression _ => "ObjectExpression"
  | property _ _ _ _ _ => "Property"
  | spreadElement _ => "SpreadElement"
  | arrowFunction _ _ _ => "ArrowFunctionExpression"
  | parameter _ _ _ => "Parameter"
  | conditional _ _ _ => "ConditionalExpression"
  | binary _ _ _ => "BinaryExpression"
  | call _ _ => "CallExpression"
  | member _ _ _ => "MemberExpression"
  | templateLiteral _ => "TemplateLiteral"
  | unary _ _ => "UnaryExpression"
  | asExpression _ _ => "AsExpression"
  | ascription _ => "TypeAnnotation"
  | other kind _ => kind

end Kind

------------------------------------------------------------
-- Nodes
------------------------------------------------------------

/-
  A node with its span.  The parent is absent until parent
  links are written.
-/
structure Node where
  id : NodeId
  location : Location
  kind : Kind
  parent : Option NodeId := none
deriving DecidableEq, Repr

end ShapeTypes
