/-
  Operators and declaration keywords of the source language.

  Key definitions include:
    * `ShapeTypes.BinaryOperator`
    * `ShapeTypes.UnaryOperator`
    * `ShapeTypes.DeclarationKeyword`
-/

namespace ShapeTypes

------------------------------------------------------------
-- Binary Operators
------------------------------------------------------------

/- The operators between two operands. -/
inductive BinaryOperator where
  | add
  | sub
  | mul
  | div
  | mod
  | pow
  | eq
  | strictEq
  | ne
  | strictNe
  | lt
  | le
  | gt
  | ge
  | and
  | or
  | nullishCoalescing
  | bitAnd
  | bitOr
  | bitXor
  | shl
  | shr
  | unsignedShr
  | isIn
  | instanceOf
deriving DecidableEq, Repr

namespace BinaryOperator

/- Every binary operator. -/
def all : List BinaryOperator :=
  [add, sub, mul, div, mod, pow, eq, strictEq, ne, strictNe, lt, le, gt, ge,
   and, or, nullishCoalescing, bitAnd, bitOr, bitXor, shl, shr, unsignedShr,
   isIn, instanceOf]

/- The operator as it is written. -/
def text : BinaryOperator → String
  | add => "+"
  | sub => "-"
  | mul => "*"
  | div => "/"
  | mod => "%"
  | pow => "**"
  | eq => "=="
  | strictEq => "==="
  | ne => "!="
  | strictNe => "!=="
  | lt => "<"
  | le => "<="
  | gt => ">"
  | ge => ">="
  | and => "&&"
  | or => "||"
  | nullishCoalescing => "??"
  | bitAnd => "&"
  | bitOr => "|"
  | bitXor => "^"
  | shl => "<<"
  | shr => ">>"
  | unsignedShr => ">>>"
  | isIn => "in"
  | instanceOf => "instanceof"

/- The operator that a text writes. -/
def ofText?
    (text : String) :
    Option BinaryOperator :=
  all.find? fun operator => operator.text == text

end BinaryOperator

------------------------------------------------------------
-- Unary Operators
------------------------------------------------------------

/- The operators before one operand. -/
inductive UnaryOperator where
  | not
  | minus
  | plus
  | bitNot
  | typeOf
  | void
  | delete
deriving DecidableEq, Repr

namespace UnaryOperator

/- Every unary operator. -/
def all : List UnaryOperator :=
  [not, minus, plus, bitNot, typeOf, void, delete]

/- The operator as it is written. -/
def text : UnaryOperator → String
  | not => "!"
  | minus => "-"
  | plus => "+"
  | bitNot => "~"
  | typeOf => "typeof"
  | void => "void"
  | delete => "delete"

/- The operator that a text writes. -/
def ofText?
    (text : String) :
    Option UnaryOperator :=
  all.find? fun operator => operator.text == text

end UnaryOperator

------------------------------------------------------------
-- Declaration Keywords
------------------------------------------------------------

/- The keywords that declare variables. -/
inductive DeclarationKeyword where
  | var
  | letK
  | const
deriving DecidableEq, Repr

namespace DeclarationKeyword

/- The keyword as it is written. -/
def text : DeclarationKeyword → String
  | var => "var"
  | letK => "let"
  | const => "const"

/- The keyword that a text writes; any other text declares as `var`. -/
def ofText
    (text : String) :
    DeclarationKeyword :=
  if text = "const" then const
  else if text = "let" then letK
  else var

end DeclarationKeyword

end ShapeTypes
