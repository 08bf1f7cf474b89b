import ShapeTypes.Descriptor.Basic

/-
  The text of a type.

  Parentheses stand where a function type would otherwise
  swallow what follows it, or a union would bind less
  tightly than the array brackets behind it.

  Key definitions include:
    * `ShapeTypes.Descriptor.isFunctionLike`
    * `ShapeTypes.Descriptor.isUnionLike`
    * `ShapeTypes.Descriptor.render`
    * `ShapeTypes.Descriptor.variant`
-/

namespace ShapeTypes

namespace Descriptor

------------------------------------------------------------
-- Where Parentheses Stand
------------------------------------------------------------

/- The text holds an arrow. -/
def hasArrow : List Char → Bool
  | '=' :: '>' :: _ => true
  | _ :: cs => hasArrow cs
  | [] => false

/- The type reads as a function type. -/
def isFunctionLike : Descriptor → Bool
  | function _ _ => true
  | named text => hasArrow text.toList
  | _ => false

/- The type reads as a union. -/
def isUnionLike : Descriptor → Bool
  | union _ => true
  | named text => text.toList.contains '|'
  | _ => false

/- Put a text in parentheses if a condition holds. -/
def parenthesized
    (condition : Bool)
    (text : String) :
    String :=
  if condition then "(" ++ text ++ ")" else text

------------------------------------------------------------
-- Rendering
------------------------------------------------------------

mutual

/- The text of a type. -/
def render : Descriptor → String
  | primitive type => type.text
  | array element =>
      parenthesized
        (element.isFunctionLike || element.isUnionLike)
        (render element) ++ "[]"
  | genericArray members =>
      "Array<" ++ " | ".intercalate (renderMembers members) ++ ">"
  | record fields =>
      match renderFields fields with
      | [] => "\x7b\x7d"
      | texts => "\x7b " ++ "; ".intercalate texts ++ " \x7d"
  | function parameters result =>
      "(" ++ ", ".intercalate (renderFields parameters) ++ ") => "
        ++ render result
  | union members => " | ".intercalate (renderMembers members)
  | named text => text
  | unknown => "unknown"

/- The texts of the members of a union. -/
def renderMembers : List Descriptor → List String
  | [] => []
  | type :: types =>
      parenthesized type.isFunctionLike (render type) :: renderMembers types

/- The texts of record fields or parameters. -/
def renderFields : List (String × Descriptor) → List String
  | [] => []
  | (name, type) :: fields =>
      (name ++ ": " ++ render type) :: renderFields fields

end

/- The name of the form that a type has. -/
def variant : Descriptor → String
  | primitive _ => "Primitive"
  | array _ => "Array"
  | genericArray _ => "GenericArray"
  | record _ => "Record"
  | function _ _ => "Function"
  | union _ => "Union"
  | named _ => "Named"
  | unknown => "Unknown"

end Descriptor

end ShapeTypes
