import ShapeTypes.Draft.Form
import ShapeTypes.Concrete.Tree
import ShapeTypes.Outline

/-
  Drafts of syntax nodes.

  The draft of a concrete node holds the outline of what the
  node stands for.  It is composed from the drafts of the
  children: tokens and comments are dropped, parentheses are
  taken away, and constructs without a form of their own
  keep their named children.

  Key definitions include:
    * `ShapeTypes.Draft`
    * `ShapeTypes.Draft.compose`
    * `ShapeTypes.Draft.ofTree`
-/

namespace ShapeTypes

open Concrete (Label Tree)

------------------------------------------------------------
-- Drafts
------------------------------------------------------------

/-
  A concrete node, the drafts of its children, and the
  outline of what it stands for.
-/
inductive Draft where
  | mk (label : Label) (parts : List Draft) (outline : Outline)

namespace Draft

/- The concrete node. -/
def label : Draft → Label
  | mk label _ _ => label

/- The drafts of the children. -/
def parts : Draft → List Draft
  | mk _ parts _ => parts

/- The outline of what the node stands for. -/
def outline : Draft → Outline
  | mk _ _ outline => outline

/- The named parts other than comments. -/
def substantial
    (parts : List Draft) :
    List Draft :=
  parts.filter (·.label.isSubstantial)

/- The first part with a role. -/
def field?
    (parts : List Draft)
    (field : String) :
    Option Draft :=
  parts.find? (·.label.field == some field)

------------------------------------------------------------
-- Leaves and Uninterpreted Nodes
------------------------------------------------------------

/- Keep the kind of a node and its named children. -/
def other
    (label : Label)
    (parts : List Draft) :
    Outline :=
  .listing label.location (.other label.kind)
    ((substantial parts).map outline)

/- A type is a leaf: only its text and span are kept. -/
def ascription
    (source : List Char)
    (label : Label) :
    Outline :=
  .leaf label.location (.ascription (label.text source))

/- A text without the matching quotes around it. -/
def unquote
    (raw : String) :
    String :=
  match raw.toList with
  | first :: rest =>
      if (first = '"' ∨ first = '\'') ∧ rest.getLast? = some first then
        String.ofList rest.dropLast
      else
        raw
  | [] => raw

/- The value of a numeric literal; a last `n` marks a big integer. -/
def numeric
    (raw : String) :
    LiteralValue :=
  if raw.toList.getLast? = some 'n' then .bigint raw else .number raw

------------------------------------------------------------
-- Declarations
------------------------------------------------------------

/- The keyword of a declaration is its first child at the latest. -/
def keyword
    (source : List Char)
    (parts : List Draft) :
    DeclarationKeyword :=
  match (field? parts "kind").or parts.head? with
  | some draft => .ofText (draft.label.text source)
  | none => .var

/- A declaration of variables. -/
def declaration
    (source : List Char)
    (label : Label)
    (parts : List Draft) :
    Outline :=
  .listing label.location (.variableDeclaration (keyword source parts))
    (((substantial parts).filter (·.label.kind == "variable_declarator")).map
      outline)

/- One declared variable. -/
def declarator
    (label : Label)
    (parts : List Draft) :
    Outline :=
  match field? parts "name" with
  | none => other label parts
  | some name =>
      .binding label.location .variableDeclarator name.outline
        ((field? parts "type").map outline)
        ((field? parts "value").map outline)

------------------------------------------------------------
-- Arrays and Objects
------------------------------------------------------------

/-
  The slots of an array.  A comma closes a slot: one that
  got no element is a hole.  `isOpen` says that the current
  slot has no element yet.
-/
def slots : (isOpen : Bool) → List Draft → List (Option Draft)
  | _, [] => []
  | isOpen, part :: parts =>
      if part.label.kind ∈ ["[", "]", "comment"] then
        slots isOpen parts
      else if part.label.kind = "," then
        if isOpen then none :: slots true parts else slots true parts
      else
        some part :: slots false parts

/- An array. -/
def array
    (label : Label)
    (parts : List Draft) :
    Outline :=
  .array label.location ((slots true parts).map (·.map outline))

/- The expression inside a computed property key. -/
def computedKey?
    (key : Draft) :
    Option Draft :=
  if key.label.kind = "computed_property_name" then
    (substantial key.parts).head?
  else
    none

/- A property with a key and a value. -/
def property
    (label : Label)
    (key : Draft)
    (value : Outline)
    (method : Bool) :
    Outline :=
  .node label.location
    (.property 0 1 (computedKey? key).isSome false method)
    [((computedKey? key).getD key).outline, value]

/- A member of an object. -/
def member
    (draft : Draft) :
    Outline :=
  match MemberForm.ofKind draft.label.kind with
  | .pair =>
      match field? draft.parts "key", field? draft.parts "value" with
      | some key, some value => property draft.label key value.outline false
      | _, _ => other draft.label draft.parts
  | .shorthand =>
      .node draft.label.location (.property 0 0 false true false)
        [draft.outline]
  | .method =>
      match field? draft.parts "name" with
      | some name =>
          property draft.label name (other draft.label draft.parts) true
      | none => other draft.label draft.parts
  | .other => draft.outline

/- An object. -/
def object
    (label : Label)
    (parts : List Draft) :
    Outline :=
  .listing label.location .objectExpression ((substantial parts).map member)

------------------------------------------------------------
-- Functions
------------------------------------------------------------

/- A parameter that is nothing but a pattern. -/
def bareParameter
    (draft : Draft) :
    Outline :=
  .binding draft.label.location .parameter draft.outline none none

/- A parameter of a list. -/
def parameter
    (draft : Draft) :
    Outline :=
  let parts := draft.parts
  match ParameterForm.ofKind draft.label.kind with
  | .annotated =>
      match field? parts "pattern" with
      | none => other draft.label parts
      | some pattern =>
          .binding draft.label.location .parameter pattern.outline
            ((field? parts "type").map outline)
            ((field? parts "value").map outline)
  | .assigned =>
      match field? parts "left" with
      | none => other draft.label parts
      | some pattern =>
          .binding draft.label.location .parameter pattern.outline none
            ((field? parts "right").map outline)
  | .bare => bareParameter draft

/- The parameters of an arrow function. -/
def parameters
    (parts : List Draft) :
    List Outline :=
  match field? parts "parameter", field? parts "parameters" with
  | some draft, _ => [bareParameter draft]
  | none, some drafts => (substantial drafts.parts).map parameter
  | none, none => []

/-
  An arrow function.  One without a body is kept
  uninterpreted, and its parameters and return type belong
  to no node.
-/
def arrow
    (label : Label)
    (parts : List Draft) :
    Outline :=
  let returnType := (field? parts "return_type").map outline
  match field? parts "body" with
  | none =>
      .remainder label.location label.kind
        (parameters parts ++ returnType.toList)
        ((substantial parts).map outline)
  | some body =>
      .arrow label.location (parameters parts) returnType body.outline
        (if body.label.kind = "statement_block" then .block else .expression)

------------------------------------------------------------
-- Expressions
------------------------------------------------------------

/- The expressions inside a template. -/
def template
    (label : Label)
    (parts : List Draft) :
    Outline :=
  let substitutions :=
    (substantial parts).filter (·.label.kind == "template_substitution")
  .listing label.location .templateLiteral
    ((substitutions.flatMap fun part => substantial part.parts).map outline)

/- A conditional expression. -/
def conditional
    (label : Label)
    (parts : List Draft) :
    Outline :=
  match
    field? parts "condition",
    field? parts "consequence",
    field? parts "alternative"
  with
  | some test, some consequent, some alternate =>
      .node label.location (.conditional 0 1 2)
        [test.outline, consequent.outline, alternate.outline]
  | _, _, _ => other label parts

/- A binary expression. -/
def binary
    (label : Label)
    (parts : List Draft) :
    Outline :=
  match
    (field? parts "operator").bind (BinaryOperator.ofText? ·.label.kind),
    field? parts "left",
    field? parts "right"
  with
  | some operator, some left, some right =>
      .node label.location (.binary operator 0 1)
        [left.outline, right.outline]
  | _, _, _ => other label parts

/- A unary expression. -/
def unary
    (label : Label)
    (parts : List Draft) :
    Outline :=
  match
    (field? parts "operator").bind (UnaryOperator.ofText? ·.label.kind),
    field? parts "argument"
  with
  | some operator, some argument =>
      .node label.location (.unary operator 0) [argument.outline]
  | _, _ => other label parts

/-
  The arguments of a call.  A template stands as the one
  argument of the function it is applied to.
-/
def arguments
    (parts : List Draft) :
    List Outline :=
  match field? parts "arguments" with
  | some drafts =>
      if drafts.label.kind = "arguments" then
        (substantial drafts.parts).map outline
      else
        [drafts.outline]
  | none => []

/- A call. -/
def call
    (label : Label)
    (parts : List Draft) :
    Outline :=
  match field? parts "function" with
  | none => other label parts
  | some callee => .call label.location callee.outline (arguments parts)

/- An access to a property, by name or by index. -/
def access
    (computed : Bool)
    (label : Label)
    (parts : List Draft) :
    Outline :=
  match
    field? parts "object",
    field? parts (if computed then "index" else "property")
  with
  | some object, some name =>
      .node label.location (.member 0 1 computed)
        [object.outline, name.outline]
  | _, _ => other label parts

------------------------------------------------------------
-- The Table of Constructs
------------------------------------------------------------

/- The outline of what a concrete node stands for. -/
def compose
    (source : List Char)
    (label : Label)
    (parts : List Draft) :
    Outline :=
  let text := label.text source
  match Form.ofKind label.kind with
  | .declaration => declaration source label parts
  | .declarator => declarator label parts
  | .expressionStatement =>
      match substantial parts with
      | expression :: _ =>
          .node label.location (.expressionStatement 0) [expression.outline]
      | [] => other label parts
  | .block =>
      .listing label.location .blockStatement ((substantial parts).map outline)
  | .returnStatement =>
      let argument := (substantial parts).head?
      .node label.location (.returnStatement (argument.map fun _ => 0))
        (argument.map outline).toList
  | .string => .leaf label.location (.literal (.string (unquote text)) text)
  | .number => .leaf label.location (.literal (numeric text) text)
  | .boolean =>
      .leaf label.location (.literal (.boolean (text == "true")) text)
  | .null => .leaf label.location (.literal .null "null")
  | .regexp => .leaf label.location (.literal (.regexp text) text)
  | .template => template label parts
  | .name => .leaf label.location (.identifier text)
  | .array => array label parts
  | .object => object label parts
  | .spread =>
      match substantial parts with
      | argument :: _ =>
          .node label.location (.spreadElement 0) [argument.outline]
      | [] => other label parts
  | .arrow => arrow label parts
  | .conditional => conditional label parts
  | .binary => binary label parts
  | .unary => unary label parts
  | .call => call label parts
  | .member => access false label parts
  | .subscript => access true label parts
  | .parenthesized =>
      match substantial parts with
      | [inner] => inner.outline
      | _ => other label parts
  | .asExpression =>
      match substantial parts with
      | [expression, type] =>
          .node label.location (.asExpression 0 1)
            [expression.outline, ascription source type.label]
      | _ => other label parts
  | .ascription =>
      match substantial parts with
      | type :: _ => ascription source type.label
      | [] => ascription source label
  | .other => other label parts

mutual

/- The draft of a concrete tree. -/
def ofTree
    (source : List Char) :
    Tree → Draft
  | .node label children =>
      let parts := ofTrees source children
      mk label parts (compose source label parts)

/- The drafts of some concrete trees. -/
def ofTrees
    (source : List Char) :
    List Tree → List Draft
  | [] => []
  | tree :: trees => ofTree source tree :: ofTrees source trees

end

end Draft

end ShapeTypes
