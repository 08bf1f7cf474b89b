/-
  The constructs that concrete nodes stand for.

  Key definitions include:
    * `ShapeTypes.Form`
    * `ShapeTypes.Form.ofKind`
    * `ShapeTypes.MemberForm.ofKind`
    * `ShapeTypes.ParameterForm.ofKind`
-/

namespace ShapeTypes

------------------------------------------------------------
-- Statements and Expressions
------------------------------------------------------------

/- The construct that a concrete node stands for. -/
inductive Form where
  | declaration
  | declarator
  | expressionStatement
  | block
  | returnStatement
  | string
  | number
  | boolean
  | null
  | regexp
  | template
  | name
  | array
  | object
  | spread
  | arrow
  | conditional
  | binary
  | unary
  | call
  | member
  | subscript
  | parenthesized
  | asExpression
  | ascription
  | other
deriving DecidableEq, Repr

/- The construct of a concrete kind. -/
def Form.ofKind : String → Form
  | "lexical_declaration" => declaration
  | "variable_declaration" => declaration
  | "variable_declarator" => declarator
  | "expression_statement" => expressionStatement
  | "statement_block" => block
  | "return_statement" => returnStatement
  | "string" => string
  | "number" => number
  | "true" => boolean
  | "false" => boolean
  | "null" => null
  | "regex" => regexp
  | "template_string" => template
  | "identifier" => name
  | "property_identifier" => name
  | "shorthand_property_identifier" => name
  | "private_property_identifier" => name
  | "undefined" => name
  | "this" => name
  | "array" => array
  | "object" => object
  | "spread_element" => spread
  | "arrow_function" => arrow
  | "ternary_expression" => conditional
  | "binary_expression" => binary
  | "unary_expression" => unary
  | "call_expression" => call
  | "member_expression" => member
  | "subscript_expression" => subscript
  | "parenthesized_expression" => parenthesized
  | "as_expression" => asExpression
  | "type_annotation" => ascription
  | _ => other

------------------------------------------------------------
-- Members of Objects
------------------------------------------------------------

/- What stands between the commas of an object. -/
inductive MemberForm where
  | pair
  | shorthand
  | method
  | other
deriving DecidableEq, Repr

/- The member form of a concrete kind. -/
def MemberForm.ofKind : String → MemberForm
  | "pair" => pair
  | "shorthand_property_identifier" => shorthand
  | "method_definition" => method
  | _ => other

------------------------------------------------------------
-- Parameters
------------------------------------------------------------

/- What stands between the commas of a parameter list. -/
inductive ParameterForm where
  | annotated
  | assigned
  | bare
deriving DecidableEq, Repr

/- The parameter form of a concrete kind. -/
def ParameterForm.ofKind : String → ParameterForm
  | "required_parameter" => annotated
  | "optional_parameter" => annotated
  | "assignment_pattern" => assigned
  | _ => bare

end ShapeTypes
